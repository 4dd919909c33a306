import Cryptox.Library.Bytes

/-!
# Percent-encoding

`encodeURIComponent` and its reader. What is encoded has letters, digits and a few marks only, and
reading gives back what was written; a text that was not written so may have no reading.
-/
namespace Cryptox.Library

/-- The characters that stand for themselves. -/
def isUnreserved (c : Char) : Bool :=
  c.isAlphanum || ['-', '_', '.', '!', '~', '*', '\x27', '(', ')'].contains c

def upperHexDigit (n : Nat) : Char := Char.ofNat (if n < 10 then 48 + n else 55 + n)

def upperHexValue (c : Char) : Option Nat :=
  if c.isDigit then some (c.toNat - 48)
  else if 'A' ≤ c ∧ c ≤ 'F' then some (c.toNat - 55)
  else if 'a' ≤ c ∧ c ≤ 'f' then some (c.toNat - 87)
  else none

def escapeByte (byte : UInt8) : List Char :=
  ['%', upperHexDigit (byte.toNat / 16), upperHexDigit (byte.toNat % 16)]

def encodeComponentChar (c : Char) : List Char :=
  if isUnreserved c then [c] else (String.utf8EncodeChar c).flatMap escapeByte

def encodeURIComponent (text : List Char) : List Char := text.flatMap encodeComponentChar

/-- The escaped bytes and the characters of a text; `none` if a percent sign escapes nothing. -/
def componentUnits : List Char → Option (List (UInt8 ⊕ Char))
  | [] => some []
  | '%' :: high :: low :: rest => do
    let high ← upperHexValue high
    let low ← upperHexValue low
    let units ← componentUnits rest
    return .inl (UInt8.ofNat (16 * high + low)) :: units
  | '%' :: _ => none
  | c :: rest => do
    let units ← componentUnits rest
    return .inr c :: units

/-- The text of bytes that are one. -/
def strictUtf8 (bytes : List UInt8) : Option (List Char) :=
  if encodeUtf8 (decodeUtf8 bytes) = bytes then some (decodeUtf8 bytes) else none

/-- Bytes that follow each other are read together. -/
def readUnits (pending : List UInt8) : List (UInt8 ⊕ Char) → Option (List Char)
  | [] => strictUtf8 pending
  | .inl byte :: units => readUnits (pending ++ [byte]) units
  | .inr c :: units => do
    let text ← strictUtf8 pending
    let rest ← readUnits [] units
    return text ++ c :: rest

def decodeURIComponent (text : List Char) : Option (List Char) :=
  (componentUnits text).bind (readUnits [])

theorem strictUtf8_encodeUtf8 (text : List Char) : strictUtf8 (encodeUtf8 text) = some text := by
  rw [strictUtf8, decodeUtf8_encodeUtf8, if_pos rfl]

theorem upperHexValue_upperHexDigit : ∀ n < 16, upperHexValue (upperHexDigit n) = some n := by decide

theorem componentUnits_escapeByte (byte : UInt8) (rest : List Char) :
    componentUnits (escapeByte byte ++ rest) =
      (componentUnits rest).map (.inl byte :: ·) := by
  have hbyte : byte.toNat < 256 := byte.toNat_lt
  have hhigh := upperHexValue_upperHexDigit (byte.toNat / 16) (by omega)
  have hlow := upperHexValue_upperHexDigit (byte.toNat % 16) (by omega)
  have hwhole : UInt8.ofNat (16 * (byte.toNat / 16) + byte.toNat % 16) = byte := by
    rw [Nat.div_add_mod, UInt8.ofNat_toNat]
  simp only [escapeByte, List.cons_append, List.nil_append, componentUnits, hhigh, hlow,
    Option.bind_eq_bind, Option.bind_some, hwhole]
  cases componentUnits rest <;> rfl

theorem componentUnits_escapeBytes (bytes : List UInt8) (rest : List Char) :
    componentUnits (bytes.flatMap escapeByte ++ rest) =
      (componentUnits rest).map (bytes.map Sum.inl ++ ·) := by
  induction bytes with
  | nil => simp
  | cons byte bytes ih =>
    rw [List.flatMap_cons, List.append_assoc, componentUnits_escapeByte, ih, Option.map_map]
    rfl

theorem ne_percent_of_isUnreserved {c : Char} (h : isUnreserved c = true) : c ≠ '%' := by
  rintro rfl
  revert h
  decide

theorem componentUnits_cons {c : Char} (h : c ≠ '%') (rest : List Char) :
    componentUnits (c :: rest) = (componentUnits rest).map (.inr c :: ·) := by
  rw [componentUnits]
  · cases componentUnits rest <;> rfl
  · exact fun _ _ _ heq _ => h heq
  · exact fun heq => h heq

/-- The units of an encoded character: itself, or the bytes that encode it. -/
def unitsOfChar (c : Char) : List (UInt8 ⊕ Char) :=
  if isUnreserved c then [.inr c] else (String.utf8EncodeChar c).map .inl

theorem componentUnits_encodeURIComponent (text : List Char) :
    componentUnits (encodeURIComponent text) = some (text.flatMap unitsOfChar) := by
  induction text with
  | nil => rfl
  | cons c text ih =>
    rw [encodeURIComponent, List.flatMap_cons, ← encodeURIComponent, encodeComponentChar,
      List.flatMap_cons, unitsOfChar]
    split
    next hplain =>
      rw [List.singleton_append, componentUnits_cons (ne_percent_of_isUnreserved hplain), ih]
      rfl
    next => rw [componentUnits_escapeBytes, ih, Option.map_some]

theorem readUnits_bytes (pending bytes : List UInt8) (units : List (UInt8 ⊕ Char)) :
    readUnits pending (bytes.map .inl ++ units) = readUnits (pending ++ bytes) units := by
  induction bytes generalizing pending with
  | nil => rw [List.map_nil, List.nil_append, List.append_nil]
  | cons byte bytes ih =>
    rw [List.map_cons, List.cons_append, readUnits, ih, List.append_assoc, List.singleton_append]

theorem encodeUtf8_append (first second : List Char) :
    encodeUtf8 (first ++ second) = encodeUtf8 first ++ encodeUtf8 second := List.flatMap_append

/-- Reading goes on from what is pending, which is the encoding of a text. -/
theorem readUnits_unitsOfChar (pending text : List Char) :
    readUnits (encodeUtf8 pending) (text.flatMap unitsOfChar) = some (pending ++ text) := by
  induction text generalizing pending with
  | nil => rw [List.flatMap_nil, readUnits, strictUtf8_encodeUtf8, List.append_nil]
  | cons c text ih =>
    rw [List.flatMap_cons, unitsOfChar]
    split
    next =>
      rw [List.singleton_append, readUnits, strictUtf8_encodeUtf8]
      have hrest := ih []
      rw [show encodeUtf8 [] = [] from rfl, List.nil_append] at hrest
      rw [hrest]
      rfl
    next =>
      have hpending : encodeUtf8 pending ++ String.utf8EncodeChar c = encodeUtf8 (pending ++ [c]) := by
        rw [encodeUtf8_append]
        simp [encodeUtf8]
      rw [readUnits_bytes, hpending, ih, List.append_assoc, List.singleton_append]

/-- Reading gives back what was encoded. -/
theorem decodeURIComponent_encodeURIComponent (text : List Char) :
    decodeURIComponent (encodeURIComponent text) = some text := by
  rw [decodeURIComponent, componentUnits_encodeURIComponent, Option.bind_some]
  exact readUnits_unitsOfChar [] text

theorem not_mem_encodeURIComponent {c : Char} (hreserved : isUnreserved c = false)
    (hescape : ∀ n < 16, upperHexDigit n ≠ c) (hpercent : '%' ≠ c) (text : List Char) :
    c ∉ encodeURIComponent text := by
  intro hmem
  obtain ⟨original, -, hc⟩ := List.mem_flatMap.mp hmem
  unfold encodeComponentChar at hc
  split at hc
  next hplain =>
    rw [← List.mem_singleton.mp hc, hreserved] at hplain
    cases hplain
  next =>
    obtain ⟨byte, -, hc⟩ := List.mem_flatMap.mp hc
    have hbyte : byte.toNat < 256 := byte.toNat_lt
    simp only [escapeByte, List.mem_cons, List.not_mem_nil, or_false] at hc
    rcases hc with rfl | rfl | rfl
    · exact hpercent rfl
    · exact hescape _ (by omega) rfl
    · exact hescape _ (by omega) rfl

theorem encodeURIComponent_ne_nil {text : List Char} (h : text ≠ []) :
    encodeURIComponent text ≠ [] := by
  intro hnil
  have hdecode := decodeURIComponent_encodeURIComponent text
  rw [hnil] at hdecode
  exact h (Option.some.inj hdecode).symm

end Cryptox.Library
