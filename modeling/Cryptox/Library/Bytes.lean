import Mathlib.Data.List.Basic
import Mathlib.Tactic.Common

/-!
# Texts and bytes

Texts as UTF-8 and bytes as base64url, with the readers of both: they take every input, and give
back what was written.
-/
namespace Cryptox.Library

section Utf8

def encodeUtf8 (text : List Char) : List UInt8 := text.flatMap String.utf8EncodeChar

/-- What may stand second after a lead byte. -/
def secondBounds (lead : UInt8) : UInt8 × UInt8 :=
  if lead = 0xe0 then (0xa0, 0xbf)
  else if lead = 0xed then (0x80, 0x9f)
  else if lead = 0xf0 then (0x90, 0xbf)
  else if lead = 0xf4 then (0x80, 0x8f)
  else (0x80, 0xbf)

/-- How many bytes at the head, which encode no character, are the beginning of one, or else one. -/
def invalidLength : List UInt8 → Nat
  | lead :: second :: rest =>
    if 0xe0 ≤ lead ∧ lead ≤ 0xf4 ∧ (secondBounds lead).1 ≤ second ∧ second ≤ (secondBounds lead).2 then
      if 0xf0 ≤ lead ∧ (rest.head?.any fun third => 0x80 ≤ third && third ≤ 0xbf) = true then 3 else 2
    else 1
  | _ => 1

/-- Bytes that encode no character are read as U+FFFD. The number of bytes bounds the reading. -/
def decodeUtf8Within : Nat → List UInt8 → List Char
  | 0, _ => []
  | _ + 1, [] => []
  | bound + 1, byte :: rest =>
    match (byte :: rest).toByteArray.utf8DecodeChar? 0 with
    | some c => c :: decodeUtf8Within bound ((byte :: rest).drop c.utf8Size)
    | none =>
      Char.ofNat 0xfffd :: decodeUtf8Within bound ((byte :: rest).drop (invalidLength (byte :: rest)))

def decodeUtf8 (bytes : List UInt8) : List Char := decodeUtf8Within bytes.length bytes

theorem decodeUtf8Within_encode (text : List Char) {bound : Nat} (h : text.length ≤ bound) :
    decodeUtf8Within bound (encodeUtf8 text) = text := by
  induction text generalizing bound with
  | nil => cases bound <;> rfl
  | cons c text ih =>
    obtain ⟨bound, rfl⟩ := Nat.exists_eq_succ_of_ne_zero
      (Nat.ne_of_gt (Nat.lt_of_lt_of_le (Nat.succ_pos text.length) h))
    have hrest : text.length ≤ bound := Nat.le_of_succ_le_succ h
    have hdecode : (String.utf8EncodeChar c ++ encodeUtf8 text).toByteArray.utf8DecodeChar? 0 =
        some c := by
      rw [List.toByteArray_append]
      exact ByteArray.utf8DecodeChar?_utf8EncodeChar_append
    have hsize : (String.utf8EncodeChar c).length = c.utf8Size := String.length_utf8EncodeChar c
    have hnonempty : String.utf8EncodeChar c ++ encodeUtf8 text ≠ [] := by
      refine List.append_ne_nil_of_left_ne_nil (List.ne_nil_of_length_pos ?_) _
      rw [hsize]
      exact Char.utf8Size_pos c
    have hsplit : encodeUtf8 (c :: text) = String.utf8EncodeChar c ++ encodeUtf8 text := rfl
    rw [hsplit]
    cases hbytes : String.utf8EncodeChar c ++ encodeUtf8 text with
    | nil => exact absurd hbytes hnonempty
    | cons byte bytes =>
      have hdrop : (String.utf8EncodeChar c ++ encodeUtf8 text).drop c.utf8Size = encodeUtf8 text := by
        rw [← hsize, List.drop_left]
      rw [decodeUtf8Within, ← hbytes, hdecode]
      simp only [hdrop, ih hrest]

theorem length_le_encodeUtf8 (text : List Char) : text.length ≤ (encodeUtf8 text).length := by
  induction text with
  | nil => exact Nat.le_refl _
  | cons c text ih =>
    have hsize := String.length_utf8EncodeChar c
    have hpos := Char.utf8Size_pos c
    rw [encodeUtf8, List.flatMap_cons, List.length_append, List.length_cons]
    rw [encodeUtf8] at ih
    omega

theorem decodeUtf8_encodeUtf8 (text : List Char) : decodeUtf8 (encodeUtf8 text) = text :=
  decodeUtf8Within_encode text (length_le_encodeUtf8 text)

end Utf8

section Base64Url

def sextetChar (n : Nat) : Char :=
  Char.ofNat (if n < 26 then 65 + n else if n < 52 then 71 + n else if n < 62 then n - 4
    else if n = 62 then 45 else 95)

/-- The letters of both base64 alphabets. -/
def sextetValue (c : Char) : Option Nat :=
  if 'A' ≤ c ∧ c ≤ 'Z' then some (c.toNat - 65)
  else if 'a' ≤ c ∧ c ≤ 'z' then some (c.toNat - 71)
  else if '0' ≤ c ∧ c ≤ '9' then some (c.toNat + 4)
  else if c = '-' ∨ c = '+' then some 62
  else if c = '_' ∨ c = '/' then some 63
  else none

/-- Three bytes are four groups of six bits. What is left over is filled up with zeros. -/
def sextetsOf : List UInt8 → List Nat
  | a :: b :: c :: rest =>
    let bits := (a.toNat * 256 + b.toNat) * 256 + c.toNat
    bits / 262144 :: bits / 4096 % 64 :: bits / 64 % 64 :: bits % 64 :: sextetsOf rest
  | [a, b] =>
    let bits := (a.toNat * 256 + b.toNat) * 4
    [bits / 4096, bits / 64 % 64, bits % 64]
  | [a] =>
    let bits := a.toNat * 16
    [bits / 64, bits % 64]
  | [] => []

def bytesOf : List Nat → List UInt8
  | a :: b :: c :: d :: rest =>
    let bits := ((a * 64 + b) * 64 + c) * 64 + d
    UInt8.ofNat (bits / 65536) :: UInt8.ofNat (bits / 256 % 256) :: UInt8.ofNat (bits % 256)
      :: bytesOf rest
  | [a, b, c] =>
    let bits := ((a * 64 + b) * 64 + c) / 4
    [UInt8.ofNat (bits / 256), UInt8.ofNat (bits % 256)]
  | [a, b] => [UInt8.ofNat ((a * 64 + b) / 16)]
  | _ => []

def encodeBase64Url (bytes : List UInt8) : List Char := (sextetsOf bytes).map sextetChar

/-- Other characters are passed over. -/
def decodeBase64Url (text : List Char) : List UInt8 := bytesOf (text.filterMap sextetValue)

theorem sextetValue_sextetChar : ∀ n < 64, sextetValue (sextetChar n) = some n := by decide

theorem sextetsOf_lt (bytes : List UInt8) : ∀ n ∈ sextetsOf bytes, n < 64 := by
  induction bytes using sextetsOf.induct with
  | case1 a b c rest ih =>
    have ha := a.toNat_lt
    have hb := b.toNat_lt
    have hc := c.toNat_lt
    intro n hn
    simp only [sextetsOf, List.mem_cons] at hn
    rcases hn with rfl | rfl | rfl | rfl | hn
    · omega
    · omega
    · omega
    · omega
    · exact ih n hn
  | case2 a b =>
    have ha := a.toNat_lt
    have hb := b.toNat_lt
    intro n hn
    simp only [sextetsOf, List.mem_cons, List.not_mem_nil, or_false] at hn
    omega
  | case3 a =>
    have ha := a.toNat_lt
    intro n hn
    simp only [sextetsOf, List.mem_cons, List.not_mem_nil, or_false] at hn
    omega
  | case4 => exact fun n hn => nomatch hn

theorem ofNat_eq {byte : UInt8} {n : Nat} (h : n = byte.toNat) : UInt8.ofNat n = byte := by
  rw [h, UInt8.ofNat_toNat]

theorem bytesOf_sextetsOf (bytes : List UInt8) : bytesOf (sextetsOf bytes) = bytes := by
  induction bytes using sextetsOf.induct with
  | case1 a b c rest ih =>
    have ha := a.toNat_lt
    have hb := b.toNat_lt
    have hc := c.toNat_lt
    simp only [sextetsOf, bytesOf, ih, List.cons.injEq, and_true]
    exact ⟨ofNat_eq (by omega), ofNat_eq (by omega), ofNat_eq (by omega)⟩
  | case2 a b =>
    have ha := a.toNat_lt
    have hb := b.toNat_lt
    simp only [sextetsOf, bytesOf, List.cons.injEq, and_true]
    exact ⟨ofNat_eq (by omega), ofNat_eq (by omega)⟩
  | case3 a =>
    have ha := a.toNat_lt
    simp only [sextetsOf, bytesOf, List.cons.injEq, and_true]
    exact ofNat_eq (by omega)
  | case4 => rfl

theorem filterMap_sextetValue {sextets : List Nat} (h : ∀ n ∈ sextets, n < 64) :
    (sextets.map sextetChar).filterMap sextetValue = sextets := by
  induction sextets with
  | nil => rfl
  | cons n sextets ih =>
    rw [List.map_cons, List.filterMap_cons_some (sextetValue_sextetChar n (h n List.mem_cons_self)),
      ih fun m hm => h m (List.mem_cons_of_mem _ hm)]

theorem decodeBase64Url_encodeBase64Url (bytes : List UInt8) :
    decodeBase64Url (encodeBase64Url bytes) = bytes := by
  rw [decodeBase64Url, encodeBase64Url, filterMap_sextetValue (sextetsOf_lt bytes),
    bytesOf_sextetsOf]

end Base64Url

end Cryptox.Library
