import Mathlib.Data.List.Basic
import Mathlib.Data.List.DropRight
import Mathlib.Data.List.TakeWhile

/-!
# JSON texts

Values, their compact text and its reader, over any way to write numbers that can be read back.
Reading inverts writing, so different values have different texts.
-/
namespace Cryptox.Library

def isNumeralChar (c : Char) : Bool :=
  c.isDigit || c == '-' || c == '+' || c == '.' || c == 'e' || c == 'E'

/-- How numbers are written, and read back. -/
structure NumberFormat (ν : Type) where
  print : ν → List Char
  read : List Char → Option ν
  read_print : ∀ number, read (print number) = some number
  numeral : ∀ number, ∀ c ∈ print number, isNumeralChar c = true
  start : ∀ number, ∃ c rest, print number = c :: rest ∧ (c.isDigit = true ∨ c = '-')

inductive JsonValue (ν : Type) where
  | null
  | bool (value : Bool)
  | number (value : ν)
  | text (value : List Char)
  | array (items : List (JsonValue ν))
  | object (fields : List (List Char × JsonValue ν))

section Text

def hexDigit (n : Nat) : Char := Char.ofNat (if n < 10 then 48 + n else 87 + n)

def hexValue (c : Char) : Option Nat :=
  if c.isDigit then some (c.toNat - 48)
  else if 'a' ≤ c ∧ c ≤ 'f' then some (c.toNat - 87)
  else if 'A' ≤ c ∧ c ≤ 'F' then some (c.toNat - 55)
  else none

/-- The quotation mark, the backslash and the control characters are escaped. -/
def escapeChar (c : Char) : List Char :=
  if c = '\x22' then ['\\', '\x22']
  else if c = '\\' then ['\\', '\\']
  else if c = '\x08' then ['\\', 'b']
  else if c = '\x0c' then ['\\', 'f']
  else if c = '\n' then ['\\', 'n']
  else if c = '\r' then ['\\', 'r']
  else if c = '\t' then ['\\', 't']
  else if c.toNat < 32 then
    ['\\', 'u', '0', '0', hexDigit (c.toNat / 16), hexDigit (c.toNat % 16)]
  else [c]

def printText (value : List Char) : List Char := '\x22' :: (value.flatMap escapeChar ++ ['\x22'])

/-- What stands for a character after a backslash, other than `u`. -/
def unescape (c : Char) : Option Char :=
  if c = '\x22' ∨ c = '\\' ∨ c = '/' then some c
  else if c = 'b' then some '\x08'
  else if c = 'f' then some '\x0c'
  else if c = 'n' then some '\n'
  else if c = 'r' then some '\r'
  else if c = 't' then some '\t'
  else none

def hexUnit (a b c d : Char) : Option Nat := do
  return (((← hexValue a) * 16 + (← hexValue b)) * 16 + (← hexValue c)) * 16 + (← hexValue d)

/-- The character of a code unit, or of two that are halves of one. A lone half has none of its
own; it is read as U+FFFD. -/
def charOfUnit (unit : Nat) : Char :=
  if 0xd800 ≤ unit ∧ unit < 0xe000 then Char.ofNat 0xfffd else Char.ofNat unit

def charOfPair (high low : Nat) : Option Char :=
  if 0xd800 ≤ high ∧ high < 0xdc00 ∧ 0xdc00 ≤ low ∧ low < 0xe000 then
    some (Char.ofNat (0x10000 + (high - 0xd800) * 0x400 + (low - 0xdc00)))
  else none

/-- The pair that two escapes may form, with what follows the second. -/
def secondHalf (high : Nat) : List Char → Option Char
  | '\\' :: 'u' :: e :: f :: g :: h :: _ => do charOfPair high (← hexUnit e f g h)
  | _ => none

/-- A text from after its opening quotation mark. The number of characters bounds the reading. -/
def readTextWithin : Nat → List Char → Option (List Char × List Char)
  | 0, _ => none
  | _ + 1, [] => none
  | bound + 1, c :: rest =>
    if c = '\x22' then some ([], rest)
    else if c = '\\' then
      match rest with
      | 'u' :: a :: b :: d :: e :: rest =>
        match hexUnit a b d e with
        | none => none
        | some unit =>
          match secondHalf unit rest with
          | some character =>
            (readTextWithin bound (rest.drop 6)).map fun read => (character :: read.1, read.2)
          | none =>
            (readTextWithin bound rest).map fun read => (charOfUnit unit :: read.1, read.2)
      | escaped :: rest =>
        match unescape escaped with
        | none => none
        | some character =>
          (readTextWithin bound rest).map fun read => (character :: read.1, read.2)
      | [] => none
    else if c.toNat < 32 then none
    else (readTextWithin bound rest).map fun read => (c :: read.1, read.2)

def readText (source : List Char) : Option (List Char × List Char) :=
  readTextWithin (source.length + 1) source

theorem hexValue_hexDigit : ∀ n < 16, hexValue (hexDigit n) = some n := by decide

theorem hexUnit_control {n : Nat} (h : n < 32) :
    hexUnit '0' '0' (hexDigit (n / 16)) (hexDigit (n % 16)) = some n := by
  have hhigh := hexValue_hexDigit (n / 16) (by omega)
  have hlow := hexValue_hexDigit (n % 16) (by omega)
  have hzero : hexValue '0' = some 0 := by decide
  rw [hexUnit, hzero, hhigh, hlow]
  simp only [Option.pure_def, Option.bind_eq_bind, Option.bind_some, Option.some.injEq]
  omega

theorem secondHalf_control {n : Nat} (h : n < 32) (rest : List Char) : secondHalf n rest = none := by
  have hpair : ∀ low, charOfPair n low = none := fun low => if_neg (by omega)
  unfold secondHalf
  split
  · rw [Option.bind_eq_bind, Option.bind_eq_none_iff]
    exact fun low _ => hpair low
  · rfl

/-- One written character is read as one. -/
theorem readTextWithin_escapeChar (bound : Nat) (c : Char) (rest : List Char) :
    readTextWithin (bound + 1) (escapeChar c ++ rest) =
      (readTextWithin bound rest).map fun read => (c :: read.1, read.2) := by
  unfold escapeChar
  split_ifs with h1 h2 h3 h4 h5 h6 h7 h8
  · subst h1
    rfl
  · subst h2
    rfl
  · subst h3
    rfl
  · subst h4
    rfl
  · subst h5
    rfl
  · subst h6
    rfl
  · subst h7
    rfl
  · have hunit := hexUnit_control h8
    have hchar : charOfUnit c.toNat = c := by
      rw [charOfUnit, if_neg (by omega), Char.ofNat_toNat]
    rw [List.cons_append, readTextWithin.eq_def]
    simp only [if_neg (show ¬ '\\' = '\x22' by decide), if_pos, List.cons_append, List.nil_append,
      hunit, secondHalf_control h8, hchar]
  · rw [List.singleton_append, readTextWithin.eq_def]
    simp only [if_neg h1, if_neg h2, if_neg h8]

theorem readTextWithin_text (value rest : List Char) {bound : Nat} (h : value.length < bound) :
    readTextWithin bound (value.flatMap escapeChar ++ '\x22' :: rest) = some (value, rest) := by
  induction value generalizing bound with
  | nil =>
    obtain ⟨bound, rfl⟩ := Nat.exists_eq_succ_of_ne_zero (Nat.ne_of_gt h)
    rfl
  | cons c value ih =>
    obtain ⟨bound, rfl⟩ := Nat.exists_eq_succ_of_ne_zero (Nat.ne_of_gt (Nat.zero_lt_of_lt h))
    have hrest : value.length < bound := Nat.lt_of_succ_lt_succ h
    rw [List.flatMap_cons, List.append_assoc, readTextWithin_escapeChar, ih hrest]
    rfl

theorem length_le_flatMap_escapeChar (value : List Char) :
    value.length ≤ (value.flatMap escapeChar).length := by
  induction value with
  | nil => simp
  | cons c value ih =>
    have hone : 1 ≤ (escapeChar c).length := by
      unfold escapeChar
      split_ifs <;> simp
    rw [List.flatMap_cons, List.length_append, List.length_cons]
    omega

theorem readText_text (value rest : List Char) :
    readText (value.flatMap escapeChar ++ '\x22' :: rest) = some (value, rest) := by
  have hlength := length_le_flatMap_escapeChar value
  refine readTextWithin_text value rest ?_
  rw [List.length_append]
  omega

end Text

namespace JsonValue

variable {ν : Type} (format : NumberFormat ν)

mutual

def print : JsonValue ν → List Char
  | .null => ['n', 'u', 'l', 'l']
  | .bool true => ['t', 'r', 'u', 'e']
  | .bool false => ['f', 'a', 'l', 's', 'e']
  | .number value => format.print value
  | .text value => printText value
  | .array items => '[' :: ([','].intercalate (printItems items) ++ [']'])
  | .object fields => '{' :: ([','].intercalate (printFields fields) ++ ['}'])

def printItems : List (JsonValue ν) → List (List Char)
  | [] => []
  | item :: items => print item :: printItems items

def printFields : List (List Char × JsonValue ν) → List (List Char)
  | [] => []
  | (key, value) :: fields => (printText key ++ ':' :: print value) :: printFields fields

end

def isSpace (c : Char) : Bool := c == ' ' || c == '\n' || c == '\r' || c == '\t'

def skipSpace (source : List Char) : List Char := source.dropWhile isSpace

mutual

/-- A value at the head of a text. The number of characters bounds the reading. -/
def readValue : Nat → List Char → Option (JsonValue ν × List Char)
  | 0, _ => none
  | bound + 1, source =>
    match skipSpace source with
    | [] => none
    | c :: rest =>
      if c = '\x22' then (readText rest).map fun read => (.text read.1, read.2)
      else if c = '[' then
        match skipSpace rest with
        | ']' :: rest => some (.array [], rest)
        | _ => (readItems bound rest).map fun read => (.array read.1, read.2)
      else if c = '{' then
        match skipSpace rest with
        | '}' :: rest => some (.object [], rest)
        | _ => (readFields bound rest).map fun read => (.object read.1, read.2)
      else if c = 'n' then (rest.dropPrefix? ['u', 'l', 'l']).map fun rest => (.null, rest)
      else if c = 't' then (rest.dropPrefix? ['r', 'u', 'e']).map fun rest => (.bool true, rest)
      else if c = 'f' then (rest.dropPrefix? ['a', 'l', 's', 'e']).map fun rest => (.bool false, rest)
      else
        (format.read ((c :: rest).takeWhile isNumeralChar)).map fun number =>
          (.number number, (c :: rest).dropWhile isNumeralChar)

def readItems : Nat → List Char → Option (List (JsonValue ν) × List Char)
  | 0, _ => none
  | bound + 1, source =>
    match readValue bound source with
    | none => none
    | some (item, rest) =>
      match skipSpace rest with
      | ',' :: rest => (readItems bound rest).map fun read => (item :: read.1, read.2)
      | ']' :: rest => some ([item], rest)
      | _ => none

def readFields : Nat → List Char → Option (List (List Char × JsonValue ν) × List Char)
  | 0, _ => none
  | bound + 1, source =>
    match skipSpace source with
    | '\x22' :: rest =>
      match readText rest with
      | none => none
      | some (key, rest) =>
        match skipSpace rest with
        | ':' :: rest =>
          match readValue bound rest with
          | none => none
          | some (value, rest) =>
            match skipSpace rest with
            | ',' :: rest => (readFields bound rest).map fun read => ((key, value) :: read.1, read.2)
            | '}' :: rest => some ([(key, value)], rest)
            | _ => none
        | _ => none
    | _ => none

end

/-- `JSON.parse`: one value and nothing but space around it. -/
def parse (source : List Char) : Option (JsonValue ν) :=
  match readValue format (source.length + 1) source with
  | some (value, rest) => if (skipSpace rest).isEmpty then some value else none
  | none => none

section RoundTrip

/-- What follows a number does not go on with it. -/
def EndsNumeral (rest : List Char) : Prop := ∀ c ∈ rest.head?, isNumeralChar c = false

mutual

/-- What reading a written value takes. -/
def size : JsonValue ν → Nat
  | .array items => 1 + sizeItems items
  | .object fields => 1 + sizeFields fields
  | _ => 1

def sizeItems : List (JsonValue ν) → Nat
  | [] => 0
  | item :: items => 1 + size item + sizeItems items

def sizeFields : List (List Char × JsonValue ν) → Nat
  | [] => 0
  | (_, value) :: fields => 1 + size value + sizeFields fields

end

theorem skipSpace_cons {c : Char} (h : isSpace c = false) (rest : List Char) :
    skipSpace (c :: rest) = c :: rest := by
  rw [skipSpace, List.dropWhile_cons_of_neg (by simp [h])]

theorem isSpace_of_isNumeralChar {c : Char} (h : isNumeralChar c = true) : isSpace c = false := by
  rw [← Bool.not_eq_true]
  intro hspace
  simp only [isSpace, Bool.or_eq_true, beq_iff_eq] at hspace
  rcases hspace with ((rfl | rfl) | rfl) | rfl <;> exact absurd h (by decide)

theorem takeWhile_numeral {numeral rest : List Char}
    (hnumeral : ∀ c ∈ numeral, isNumeralChar c = true) (hrest : EndsNumeral rest) :
    (numeral ++ rest).takeWhile isNumeralChar = numeral ∧
      (numeral ++ rest).dropWhile isNumeralChar = rest := by
  induction numeral with
  | nil =>
    cases rest with
    | nil => exact ⟨rfl, rfl⟩
    | cons c rest =>
      have hc : isNumeralChar c = false := hrest c rfl
      exact ⟨List.takeWhile_cons_of_neg (by simp [hc]), List.dropWhile_cons_of_neg (by simp [hc])⟩
  | cons c numeral ih =>
    have hc := hnumeral c List.mem_cons_self
    obtain ⟨htake, hdrop⟩ := ih fun d hd => hnumeral d (List.mem_cons_of_mem _ hd)
    rw [List.cons_append, List.takeWhile_cons_of_pos hc, List.dropWhile_cons_of_pos hc, htake]
    exact ⟨rfl, hdrop⟩

/-- A written number is read. -/
theorem readValue_number (bound : Nat) (number : ν) {rest : List Char} (hrest : EndsNumeral rest) :
    readValue format (bound + 1) (format.print number ++ rest) = some (.number number, rest) := by
  obtain ⟨c, digits, hprint, hstart⟩ := format.start number
  obtain ⟨htake, hdrop⟩ := takeWhile_numeral (format.numeral number) hrest
  have hread := format.read_print number
  have hc : isNumeralChar c = true := format.numeral number c (by simp [hprint])
  have hother : ∀ d : Char, d.isDigit = false → d ≠ '-' → c ≠ d := by
    rintro d hdigit hminus rfl
    rcases hstart with h | h
    · rw [hdigit] at h
      cases h
    · exact hminus h
  have h1 := hother '\x22' (by decide) (by decide)
  have h2 := hother '[' (by decide) (by decide)
  have h3 := hother '{' (by decide) (by decide)
  have h4 := hother 'n' (by decide) (by decide)
  have h5 := hother 't' (by decide) (by decide)
  have h6 := hother 'f' (by decide) (by decide)
  rw [hprint, List.cons_append] at htake hdrop ⊢
  rw [readValue, skipSpace_cons (isSpace_of_isNumeralChar hc)]
  simp only [if_neg h1, if_neg h2, if_neg h3, if_neg h4, if_neg h5, if_neg h6, htake, hdrop]
  rw [← hprint, hread]
  rfl

theorem readValue_text (bound : Nat) (value rest : List Char) :
    readValue format (bound + 1) (printText value ++ rest) = some (.text value, rest) := by
  rw [printText, List.cons_append, List.append_assoc, List.singleton_append, readValue,
    skipSpace_cons (by decide)]
  simp only [if_pos, readText_text]
  rfl

/-- No written value starts like the end of a list. -/
theorem print_head (value : JsonValue ν) :
    ∃ c rest, print format value = c :: rest ∧ isSpace c = false ∧ c ≠ ']' ∧ c ≠ '}' := by
  cases value with
  | null => exact ⟨'n', _, rfl, by decide, by decide, by decide⟩
  | bool value =>
    cases value with
    | true => exact ⟨'t', _, rfl, by decide, by decide, by decide⟩
    | false => exact ⟨'f', _, rfl, by decide, by decide, by decide⟩
  | number number =>
    obtain ⟨c, rest, hprint, -⟩ := format.start number
    have hc : isNumeralChar c = true := format.numeral number c (by simp [hprint])
    refine ⟨c, rest, hprint, isSpace_of_isNumeralChar hc, ?_, ?_⟩ <;> rintro rfl <;>
      exact absurd hc (by decide)
  | text value => exact ⟨'\x22', _, rfl, by decide, by decide, by decide⟩
  | array items => exact ⟨'[', _, rfl, by decide, by decide, by decide⟩
  | object fields => exact ⟨'{', _, rfl, by decide, by decide, by decide⟩

theorem intercalate_cons_append (sep : Char) (text : List Char) (texts : List (List Char))
    (rest : List Char) :
    [sep].intercalate (text :: texts) ++ rest =
      text ++ match texts with
        | [] => rest
        | _ :: _ => sep :: ([sep].intercalate texts ++ rest) := by
  cases texts with
  | nil => simp
  | cons next texts => simp [List.intercalate_cons_cons]

theorem endsNumeral_cons {c : Char} (h : isNumeralChar c = false) (rest : List Char) :
    EndsNumeral (c :: rest) := by
  intro d hd
  cases hd
  exact h

def ReadsValues (bound : Nat) : Prop :=
  ∀ (value : JsonValue ν) (rest : List Char), size value ≤ bound → EndsNumeral rest →
    readValue format bound (print format value ++ rest) = some (value, rest)

def ReadsItems (bound : Nat) : Prop :=
  ∀ (item : JsonValue ν) (items : List (JsonValue ν)) (rest : List Char),
    sizeItems (item :: items) ≤ bound →
      readItems format bound
        ([','].intercalate (printItems format (item :: items)) ++ ']' :: rest) =
          some (item :: items, rest)

def ReadsFields (bound : Nat) : Prop :=
  ∀ (key : List Char) (value : JsonValue ν) (fields : List (List Char × JsonValue ν))
    (rest : List Char), sizeFields ((key, value) :: fields) ≤ bound →
      readFields format bound
        ([','].intercalate (printFields format ((key, value) :: fields)) ++ '}' :: rest) =
          some ((key, value) :: fields, rest)

variable {format}

theorem readsItems_succ {bound : Nat} (hvalues : ReadsValues format bound)
    (hitems : ReadsItems format bound) : ReadsItems format (bound + 1) := by
  intro item items rest hbound
  simp only [sizeItems] at hbound
  rw [printItems, intercalate_cons_append, readItems]
  cases items with
  | nil =>
    rw [printItems, hvalues item _ (by omega) (endsNumeral_cons (by decide) _)]
    rfl
  | cons next items =>
    have hmore := hitems next items rest (by simp only [sizeItems] at hbound ⊢; omega)
    rw [printItems] at hmore ⊢
    rw [hvalues item _ (by omega) (endsNumeral_cons (by decide) _)]
    simp only [skipSpace_cons (show isSpace ',' = false by decide), hmore]
    rfl

theorem readsFields_succ {bound : Nat} (hvalues : ReadsValues format bound)
    (hfields : ReadsFields format bound) : ReadsFields format (bound + 1) := by
  intro key value fields rest hbound
  simp only [sizeFields] at hbound
  rw [printFields, intercalate_cons_append, printText]
  simp only [List.cons_append, List.append_assoc, List.nil_append]
  rw [readFields, skipSpace_cons (by decide)]
  simp only [readText_text, skipSpace_cons (show isSpace ':' = false by decide)]
  cases fields with
  | nil =>
    rw [printFields]
    simp only [hvalues value _ (show size value ≤ bound by omega)
      (endsNumeral_cons (show isNumeralChar '}' = false by decide) rest)]
    rfl
  | cons next fields =>
    obtain ⟨nextKey, nextValue⟩ := next
    have hmore := hfields nextKey nextValue fields rest
      (by simp only [sizeFields] at hbound ⊢; omega)
    rw [printFields] at hmore ⊢
    simp only [hvalues value _ (show size value ≤ bound by omega)
      (endsNumeral_cons (show isNumeralChar ',' = false by decide) _),
      skipSpace_cons (show isSpace ',' = false by decide), hmore]
    rfl

theorem readsValues_succ {bound : Nat} (hitems : ReadsItems format bound)
    (hfields : ReadsFields format bound) : ReadsValues format (bound + 1) := by
  intro value rest hbound hrest
  cases value with
  | null => simp [print, readValue, skipSpace_cons, isSpace, List.dropPrefix?]
  | bool value =>
    cases value <;> simp [print, readValue, skipSpace_cons, isSpace, List.dropPrefix?]
  | number number => exact readValue_number format bound number hrest
  | text value => exact readValue_text format bound value rest
  | array items =>
    cases items with
    | nil => rfl
    | cons item items =>
      have hread := hitems item items rest (by simp only [size] at hbound; omega)
      obtain ⟨c, tail, hprint, hspace, hclose, -⟩ := print_head format item
      have hhead : ∃ more, [','].intercalate (printItems format (item :: items)) ++ ']' :: rest =
          c :: more := by
        rw [printItems, intercalate_cons_append, hprint]
        exact ⟨_, rfl⟩
      obtain ⟨more, hmore⟩ := hhead
      rw [hmore] at hread
      rw [print, List.cons_append, List.append_assoc, List.singleton_append, hmore, readValue,
        skipSpace_cons (by decide)]
      simp only [if_neg (show ¬ '[' = '\x22' by decide), if_pos, skipSpace_cons hspace]
      split
      · next heq =>
        cases heq
        exact absurd rfl hclose
      · rw [hread]
        rfl
  | object fields =>
    cases fields with
    | nil => rfl
    | cons field fields =>
      obtain ⟨key, value⟩ := field
      have hread := hfields key value fields rest (by simp only [size] at hbound; omega)
      have hhead : ∃ more,
          [','].intercalate (printFields format ((key, value) :: fields)) ++ '}' :: rest =
            '\x22' :: more := by
        rw [printFields, intercalate_cons_append, printText]
        exact ⟨_, rfl⟩
      obtain ⟨more, hmore⟩ := hhead
      rw [hmore] at hread
      rw [print, List.cons_append, List.append_assoc, List.singleton_append, hmore, readValue,
        skipSpace_cons (by decide)]
      simp only [if_neg (show ¬ '{' = '\x22' by decide), if_neg (show ¬ '{' = '[' by decide), if_pos,
        skipSpace_cons (show isSpace '\x22' = false by decide), hread]
      rfl

/-- Every written value is read, given as many turns as it has parts. -/
theorem reads (bound : Nat) :
    ReadsValues format bound ∧ ReadsItems format bound ∧ ReadsFields format bound := by
  induction bound with
  | zero =>
    refine ⟨?_, ?_, ?_⟩
    · intro value rest hbound
      cases value <;> simp only [size] at hbound <;> omega
    · intro item items rest hbound
      simp only [sizeItems] at hbound
      omega
    · intro key value fields rest hbound
      simp only [sizeFields] at hbound
      omega
  | succ bound ih =>
    obtain ⟨hvalues, hitems, hfields⟩ := ih
    exact ⟨readsValues_succ hitems hfields, readsItems_succ hvalues hitems,
      readsFields_succ hvalues hfields⟩

variable (format)

mutual

theorem size_le_print (value : JsonValue ν) : size value ≤ (print format value).length := by
  obtain ⟨c, rest, hprint, -⟩ := print_head format value
  cases value with
  | array items =>
    have hitems := sizeItems_le_print items
    simp only [size, print, List.length_cons, List.length_append]
    omega
  | object fields =>
    have hfields := sizeFields_le_print fields
    simp only [size, print, List.length_cons, List.length_append]
    omega
  | null | bool _ | number _ | text _ =>
    rw [hprint]
    simp only [size, List.length_cons]
    omega

theorem sizeItems_le_print (items : List (JsonValue ν)) :
    sizeItems items ≤ ([','].intercalate (printItems format items)).length + 1 := by
  cases items with
  | nil => simp [sizeItems]
  | cons item items =>
    have hitem := size_le_print item
    have hitems := sizeItems_le_print items
    cases items with
    | nil =>
      simp only [sizeItems, printItems, List.intercalate_singleton] at hitems ⊢
      omega
    | cons next items =>
      rw [sizeItems, printItems]
      rw [printItems] at hitems ⊢
      rw [List.intercalate_cons_cons]
      simp only [List.length_append, List.length_singleton] at hitems ⊢
      omega

theorem sizeFields_le_print (fields : List (List Char × JsonValue ν)) :
    sizeFields fields ≤ ([','].intercalate (printFields format fields)).length + 1 := by
  cases fields with
  | nil => simp [sizeFields]
  | cons field fields =>
    obtain ⟨key, value⟩ := field
    have hvalue := size_le_print value
    have hfields := sizeFields_le_print fields
    cases fields with
    | nil =>
      simp only [sizeFields, printFields, List.intercalate_singleton, List.length_append,
        List.length_cons] at hfields ⊢
      omega
    | cons next fields =>
      obtain ⟨nextKey, nextValue⟩ := next
      rw [sizeFields, printFields]
      rw [printFields] at hfields ⊢
      rw [List.intercalate_cons_cons]
      simp only [List.length_append, List.length_cons, List.length_nil] at hfields ⊢
      omega

end

/-- Reading inverts writing. -/
theorem parse_print (value : JsonValue ν) : parse format (print format value) = some value := by
  have hsize := size_le_print format value
  have hread := (@reads ν format ((print format value).length + 1)).1 value [] (by omega)
    (fun c hc => nomatch hc)
  rw [List.append_nil] at hread
  rw [parse, hread]
  rfl

theorem print_inj {first second : JsonValue ν} (h : print format first = print format second) :
    first = second := by
  have hread := parse_print format first
  rw [h, parse_print format second] at hread
  exact (Option.some.inj hread).symm

end RoundTrip

end JsonValue

end Cryptox.Library
