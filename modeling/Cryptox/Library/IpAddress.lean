import Mathlib.Data.List.TakeWhile
import Mathlib.Data.Fintype.Basic
import Mathlib.Tactic.Common

/-!
# IP addresses and their texts

An address of the older kind is four octets, one of the newer kind eight pieces. A text is one the
URL standard's serializer writes, or one `inet_ntop` writes; `isIP` recognises both, and more.
-/
namespace Cryptox.Library

abbrev Text := List Char

structure Ipv4 where
  first : Fin 256
  second : Fin 256
  third : Fin 256
  fourth : Fin 256
deriving DecidableEq, Repr

structure Ipv6 where
  pieces : List Nat
  length_eq : pieces.length = 8
  small : ∀ piece ∈ pieces, piece < 65536
deriving DecidableEq, Repr

/-! ## Writing -/

def decimalText (value : Nat) : Text := Nat.toDigits 10 value

/-- A piece in lower-case hexadecimal, without leading noughts. -/
def hexText (piece : Nat) : Text :=
  if piece < 16 then [Nat.digitChar piece]
  else if piece < 256 then [Nat.digitChar (piece / 16), Nat.digitChar (piece % 16)]
  else if piece < 4096 then
    [Nat.digitChar (piece / 256), Nat.digitChar (piece / 16 % 16), Nat.digitChar (piece % 16)]
  else
    [Nat.digitChar (piece / 4096), Nat.digitChar (piece / 256 % 16), Nat.digitChar (piece / 16 % 16),
      Nat.digitChar (piece % 16)]

def dottedText (address : Ipv4) : Text :=
  ['.'].intercalate [decimalText address.first, decimalText address.second,
    decimalText address.third, decimalText address.fourth]

def zeroRun (pieces : List Nat) : Nat := (pieces.takeWhile (· = 0)).length

/-- The first of the longest runs of zero pieces, if it has more than one: where it begins and how
long it is. -/
def compressAt (pieces : List Nat) : Option (Nat × Nat) :=
  let runs := (List.range 8).map fun index => zeroRun (pieces.drop index)
  let longest := runs.max?.getD 0
  if longest < 2 then none else some (runs.idxOf longest, longest)

/-- The texts between the colons, with an empty one for the run that is left out, and another for a
side of it that is empty. -/
def compressedGroups (left right : List Text) : List Text :=
  (if left.isEmpty then [[]] else left) ++ [] :: (if right.isEmpty then [[]] else right)

def urlGroups (pieces : List Nat) : List Text :=
  match compressAt pieces with
  | none => pieces.map hexText
  | some (start, length) => compressedGroups ((pieces.take start).map hexText)
      ((pieces.drop (start + length)).map hexText)

/-- The serializer of the URL standard. -/
def urlText (address : Ipv6) : Text := [':'].intercalate (urlGroups address.pieces)

/-- The last two pieces as an address of the older kind. -/
def lowIpv4 (high low : Nat) : Ipv4 where
  first := Fin.ofNat 256 (high / 256)
  second := Fin.ofNat 256 high
  third := Fin.ofNat 256 (low / 256)
  fourth := Fin.ofNat 256 low

/-- The groups of `inet_ntop`, which dots the end of a mapped or a compatible address. -/
def resolvedGroups (pieces : List Nat) : List Text :=
  match pieces with
  | [0, 0, 0, 0, 0, 0xffff, high, low] =>
    [[], [], hexText 0xffff, dottedText (lowIpv4 high low)]
  | [0, 0, 0, 0, 0, 0, high, low] =>
    if high = 0 then urlGroups pieces else [[], [], dottedText (lowIpv4 high low)]
  | _ => urlGroups pieces

def resolvedText (address : Ipv6) : Text := [':'].intercalate (resolvedGroups address.pieces)

/-! ## Recognising -/

/-- The value of a text of decimal digits. -/
def numberOf (digits : Text) : Nat :=
  digits.foldl (fun value digit => value * 10 + (digit.toNat - '0'.toNat)) 0

/-- The value of a text that consists of decimal digits. -/
def decimalValue? (group : Text) : Option Nat :=
  if !group.isEmpty && group.all Char.isDigit then some (numberOf group) else none

def isOctet (group : Text) : Bool :=
  !group.isEmpty && group.length ≤ 3 && group.all Char.isDigit &&
    (group.length == 1 || group.head? != some '0') && numberOf group ≤ 255

def isIPv4 (text : Text) : Bool :=
  (text.splitOn '.').length == 4 && (text.splitOn '.').all isOctet

def isHexDigit (c : Char) : Bool :=
  c.isDigit || ('a' ≤ c && c ≤ 'f') || ('A' ≤ c && c ≤ 'F')

def isSegment (group : Text) : Bool :=
  !group.isEmpty && group.length ≤ 4 && group.all isHexDigit

/-- The pieces that groups stand for; the last may be dotted and stands for two. -/
def pieceCount : List Text → Option Nat
  | [] => none
  | [last] => if isSegment last then some 1 else if isIPv4 last then some 2 else none
  | group :: rest => if isSegment group then (pieceCount rest).map (· + 1) else none

/-- What is left and right of a double colon. -/
def isCompressed (left right : List Text) : Bool :=
  left.all isSegment && (if right = [[]] then left.length ≤ 7
    else (pieceCount right).any fun count => left.length + count ≤ 7)

def areGroups (groups : List Text) : Bool :=
  match groups with
  | [] :: [] :: right => isCompressed [] right
  | _ =>
    let left := groups.takeWhile (!·.isEmpty)
    match groups.dropWhile (!·.isEmpty) with
    | [] => pieceCount left == some 8
    | _ :: right => !left.isEmpty && isCompressed left right

/-- The zone that may follow the address. -/
def isZone (zone : Text) : Bool :=
  match zone with
  | [] => true
  | _ :: name => !name.isEmpty &&
    name.all fun c => c.isAlphanum || c == '-' || c == '.' || c == ':'

def isIPv6 (text : Text) : Bool :=
  areGroups ((text.takeWhile (· ≠ '%')).splitOn ':') && isZone (text.dropWhile (· ≠ '%'))

/-- The kind of a text: 4, 6, or nought for none. -/
def isIP (text : Text) : Nat :=
  if isIPv4 text then 4 else if isIPv6 text then 6 else 0

/-! ## The letters of a text -/

/-- The digits in lower case. -/
def hexLetters : Text := "0123456789abcdef".toList

theorem digitChar_mem {value : Nat} (h : value < 16) : Nat.digitChar value ∈ hexLetters := by
  have hall : ∀ digit : Fin 16, Nat.digitChar digit ∈ hexLetters := by decide
  exact hall ⟨value, h⟩

theorem hexText_letters {piece : Nat} (h : piece < 65536) : ∀ c ∈ hexText piece, c ∈ hexLetters := by
  intro c hc
  unfold hexText at hc
  split_ifs at hc <;> simp only [List.mem_cons, List.not_mem_nil, or_false] at hc
  · rw [hc]
    exact digitChar_mem (by omega)
  · rcases hc with rfl | rfl <;> exact digitChar_mem (by omega)
  · rcases hc with rfl | rfl | rfl <;> exact digitChar_mem (by omega)
  · rcases hc with rfl | rfl | rfl | rfl <;> exact digitChar_mem (by omega)

theorem isSegment_hexText {piece : Nat} (h : piece < 65536) : isSegment (hexText piece) = true := by
  have hletters : hexLetters.all isHexDigit = true := by decide
  have hlength : hexText piece ≠ [] ∧ (hexText piece).length ≤ 4 := by
    unfold hexText
    split_ifs <;> simp
  have hall : (hexText piece).all isHexDigit = true :=
    List.all_eq_true.mpr fun c hc => List.all_eq_true.mp hletters c (hexText_letters h c hc)
  rw [isSegment, hall, Bool.and_true, Bool.and_eq_true, decide_eq_true_eq, Bool.not_eq_true',
    List.isEmpty_eq_false_iff]
  exact hlength

/-- What is written of an octet. -/
structure OctetText (text : Text) (value : Nat) : Prop where
  octet : isOctet text = true
  digits : text.all Char.isDigit = true
  nonempty : text.isEmpty = false
  letters : ∀ c ∈ text, c ∈ hexLetters
  number : numberOf text = value

theorem decimalText_octet (value : Fin 256) : OctetText (decimalText value) value := by
  have hall : ∀ value : Fin 256, isOctet (decimalText value) = true ∧
      (decimalText value).all Char.isDigit = true ∧ (decimalText value).isEmpty = false ∧
      decimalText value ⊆ hexLetters ∧ numberOf (decimalText value) = value := by
    decide +kernel
  obtain ⟨hoctet, hdigits, hnonempty, hletters, hnumber⟩ := hall value
  exact ⟨hoctet, hdigits, hnonempty, fun c hc => hletters hc, hnumber⟩

theorem not_mem_of_digits {text : Text} (h : text.all Char.isDigit = true) {c : Char}
    (hc : c.isDigit = false) : c ∉ text := by
  intro hmem
  rw [List.all_eq_true.mp h c hmem] at hc
  cases hc

theorem decimalValue_decimalText (value : Fin 256) :
    decimalValue? (decimalText value) = some value.val := by
  have htext := decimalText_octet value
  rw [decimalValue?, htext.nonempty, htext.digits, htext.number]
  rfl

theorem dottedText_parts (address : Ipv4) : (dottedText address).splitOn '.'
    = [decimalText address.first, decimalText address.second, decimalText address.third,
      decimalText address.fourth] := by
  refine List.splitOn_intercalate '.' ?_ (List.cons_ne_nil _ _)
  have hdot : ∀ value : Fin 256, '.' ∉ decimalText value := fun value =>
    not_mem_of_digits (decimalText_octet value).digits rfl
  simp [hdot]

theorem isIPv4_dottedText (address : Ipv4) : isIPv4 (dottedText address) = true := by
  simp [isIPv4, dottedText_parts, (decimalText_octet _).octet]

/-- A joined text has the letters of its groups and the separator. -/
theorem mem_intercalate {separator c : Char} {groups : List Text}
    (h : c ∈ [separator].intercalate groups) : c = separator ∨ ∃ group ∈ groups, c ∈ group := by
  induction groups with
  | nil => simp at h
  | cons group rest ih =>
    cases rest with
    | nil =>
      rw [List.intercalate_singleton] at h
      exact .inr ⟨group, List.mem_cons_self, h⟩
    | cons next rest =>
      rw [List.intercalate_cons_cons] at h
      rcases List.mem_append.mp h with hfirst | hlater
      · rcases List.mem_append.mp hfirst with hgroup | hseparator
        · exact .inr ⟨group, List.mem_cons_self, hgroup⟩
        · exact .inl (List.mem_singleton.mp hseparator)
      · rcases ih hlater with hseparator | ⟨other, hother, hc⟩
        · exact .inl hseparator
        · exact .inr ⟨other, List.mem_cons_of_mem group hother, hc⟩

/-- The letters of a dotted address. -/
theorem isIPv4_letters {text : Text} (h : isIPv4 text = true) :
    ∀ c ∈ text, c.isDigit = true ∨ c = '.' := by
  intro c hc
  have hjoin : ['.'].intercalate (text.splitOn '.') = text := List.intercalate_splitOn '.'
  rw [← hjoin] at hc
  rcases mem_intercalate hc with hdot | ⟨group, hgroup, hc⟩
  · exact .inr hdot
  · rw [isIPv4, Bool.and_eq_true, List.all_eq_true] at h
    have hoctet := h.2 group hgroup
    simp only [isOctet, Bool.and_eq_true] at hoctet
    exact .inl (List.all_eq_true.mp hoctet.1.1.2 c hc)

/-! ## Every text that is written is recognised -/

theorem pieceCount_hexText {pieces : List Nat} (h : pieces ≠ [])
    (hsmall : ∀ piece ∈ pieces, piece < 65536) :
    pieceCount (pieces.map hexText) = some pieces.length := by
  induction pieces with
  | nil => exact absurd rfl h
  | cons piece rest ih =>
    have hsegment := isSegment_hexText (hsmall piece List.mem_cons_self)
    cases rest with
    | nil => simp [pieceCount, hsegment]
    | cons next rest =>
      have hrest := ih (List.cons_ne_nil _ _) fun other hother =>
        hsmall other (List.mem_cons_of_mem piece hother)
      rw [List.map_cons, List.map_cons] at *
      rw [pieceCount, if_pos hsegment, hrest]
      · rfl
      · exact List.cons_ne_nil _ _

theorem areGroups_of_nonempty {groups : List Text} (h : ∀ group ∈ groups, group.isEmpty = false) :
    areGroups groups = (pieceCount groups == some 8) := by
  have htake : groups.takeWhile (!·.isEmpty) = groups :=
    List.takeWhile_eq_self_iff.mpr fun group hgroup => by rw [h group hgroup]; rfl
  have hdrop : groups.dropWhile (!·.isEmpty) = [] :=
    List.dropWhile_eq_nil_iff.mpr fun group hgroup => by rw [h group hgroup]; rfl
  unfold areGroups
  split
  · cases h [] List.mem_cons_self
  · rw [htake, hdrop]

theorem areGroups_compressed {left : List Text} (right : List Text)
    (h : ∀ group ∈ left, group.isEmpty = false) : areGroups (compressedGroups left right)
      = isCompressed left (if right.isEmpty then [[]] else right) := by
  cases left with
  | nil => rfl
  | cons first rest =>
    have hfirst : first ≠ [] := List.isEmpty_eq_false_iff.mp (h first List.mem_cons_self)
    have hall : ∀ group ∈ first :: rest, (!group.isEmpty) = true := fun group hgroup => by
      rw [h group hgroup]
      rfl
    rw [compressedGroups, if_neg (by simp)]
    generalize (if right.isEmpty then [[]] else right) = after
    unfold areGroups
    split
    · rename_i heq
      exact absurd (List.cons.inj heq).1 hfirst
    · rw [List.takeWhile_append_of_pos hall, List.dropWhile_append_of_pos hall]
      simp

/-- Where the run that is left out lies. -/
theorem compressAt_eq_some {pieces : List Nat} {start length : Nat}
    (h : compressAt pieces = some (start, length)) :
    2 ≤ length ∧ zeroRun (pieces.drop start) = length ∧ start + length ≤ pieces.length := by
  simp only [compressAt] at h
  split at h
  · cases h
  · rename_i hlong
    obtain ⟨rfl, rfl⟩ := Prod.mk.inj (Option.some.inj h)
    generalize hruns : (List.range 8).map (fun index => zeroRun (pieces.drop index)) = runs at *
    cases hmax : runs.max? with
    | none =>
      rw [hmax] at hlong
      exact absurd (by simp) hlong
    | some longest =>
      rw [hmax, Option.getD_some, not_lt] at hlong
      have hmem : longest ∈ runs := List.max?_mem hmax
      have hlt := List.idxOf_lt_length_of_mem hmem
      have hentry : ∀ index (hindex : index < runs.length),
          runs[index] = zeroRun (pieces.drop index) := by
        intro index hindex
        simp [← hruns]
      have hvalue := (hentry _ hlt).symm.trans (List.getElem_idxOf hlt)
      have hwithin : zeroRun (pieces.drop (runs.idxOf longest))
          ≤ (pieces.drop (runs.idxOf longest)).length := (List.takeWhile_sublist _).length_le
      rw [hvalue, List.length_drop] at hwithin
      refine ⟨hlong, hvalue, ?_⟩
      rw [Option.getD_some]
      omega

/-- Groups without a percent sign, joined by colons, are read again. -/
theorem isIP_intercalate {groups : List Text} (hcolon : ∀ group ∈ groups, ':' ∉ group)
    (hpercent : ∀ group ∈ groups, '%' ∉ group) (hlength : 2 ≤ groups.length)
    (h : areGroups groups = true) : isIP ([':'].intercalate groups) = 6 := by
  have hsplit : ([':'].intercalate groups).splitOn ':' = groups :=
    List.splitOn_intercalate ':' hcolon (by rintro rfl; simp at hlength)
  have hjoined : ':' ∈ [':'].intercalate groups := by
    by_contra hnone
    rw [List.splitOn_eq_singleton hnone] at hsplit
    rw [← hsplit] at hlength
    simp at hlength
  have hzone : ∀ c ∈ [':'].intercalate groups, c ≠ '%' := by
    rintro c hc rfl
    rcases mem_intercalate hc with hsame | ⟨group, hgroup, hc⟩
    · cases hsame
    · exact hpercent group hgroup hc
  have hfour : isIPv4 ([':'].intercalate groups) = false := by
    rw [Bool.eq_false_iff]
    intro hdotted
    rcases isIPv4_letters hdotted ':' hjoined with hdigit | hdot
    · cases hdigit
    · cases hdot
  have hsix : isIPv6 ([':'].intercalate groups) = true := by
    have htake : ([':'].intercalate groups).takeWhile (· ≠ '%') = [':'].intercalate groups :=
      List.takeWhile_eq_self_iff.mpr fun c hc => decide_eq_true (hzone c hc)
    have hdrop : ([':'].intercalate groups).dropWhile (· ≠ '%') = [] :=
      List.dropWhile_eq_nil_iff.mpr fun c hc => decide_eq_true (hzone c hc)
    rw [isIPv6, htake, hdrop, hsplit, h]
    rfl
  rw [isIP, hfour, hsix]
  rfl

theorem hexText_nonempty (piece : Nat) : (hexText piece).isEmpty = false := by
  unfold hexText
  split_ifs <;> rfl

theorem map_hexText_nonempty (pieces : List Nat) :
    ∀ group ∈ pieces.map hexText, group.isEmpty = false := by
  intro group hgroup
  obtain ⟨piece, -, rfl⟩ := List.mem_map.mp hgroup
  exact hexText_nonempty piece

theorem map_hexText_letters {pieces : List Nat} (h : ∀ piece ∈ pieces, piece < 65536) :
    ∀ group ∈ pieces.map hexText, ∀ c ∈ group, c ∈ hexLetters := by
  intro group hgroup
  obtain ⟨piece, hpiece, rfl⟩ := List.mem_map.mp hgroup
  exact hexText_letters (h piece hpiece)

/-- What a text that is written is made of. -/
structure Written (groups : List Text) : Prop where
  letters : ∀ group ∈ groups, ∀ c ∈ group, c ∈ hexLetters
  several : 2 ≤ groups.length
  recognised : areGroups groups = true

theorem compressedGroups_letters {left right : List Text}
    (hleft : ∀ group ∈ left, ∀ c ∈ group, c ∈ hexLetters)
    (hright : ∀ group ∈ right, ∀ c ∈ group, c ∈ hexLetters) :
    ∀ group ∈ compressedGroups left right, ∀ c ∈ group, c ∈ hexLetters := by
  have hside : ∀ side : List Text, (∀ group ∈ side, ∀ c ∈ group, c ∈ hexLetters) →
      ∀ group ∈ (if side.isEmpty then [[]] else side), ∀ c ∈ group, c ∈ hexLetters := by
    intro side hside group hgroup
    split at hgroup
    · rw [List.mem_singleton.mp hgroup]
      exact fun c hc => absurd hc List.not_mem_nil
    · exact hside group hgroup
  intro group hgroup
  rcases List.mem_append.mp hgroup with hgroup | hgroup
  · exact hside left hleft group hgroup
  · rcases List.mem_cons.mp hgroup with rfl | hgroup
    · exact fun c hc => absurd hc List.not_mem_nil
    · exact hside right hright group hgroup

theorem isCompressed_hexText {left right : List Nat} (hleft : ∀ piece ∈ left, piece < 65536)
    (hright : ∀ piece ∈ right, piece < 65536) (hfew : left.length + right.length ≤ 7) :
    isCompressed (left.map hexText)
      (if (right.map hexText).isEmpty then [[]] else right.map hexText) = true := by
  have hall : (left.map hexText).all isSegment = true := by
    refine List.all_eq_true.mpr fun group hgroup => ?_
    obtain ⟨piece, hpiece, rfl⟩ := List.mem_map.mp hgroup
    exact isSegment_hexText (hleft piece hpiece)
  rw [isCompressed, hall, Bool.true_and]
  cases right with
  | nil =>
    simp only [List.map_nil, List.isEmpty_nil, if_true, List.length_map, decide_eq_true_eq]
    omega
  | cons piece rest =>
    have hcount := pieceCount_hexText (List.cons_ne_nil piece rest) hright
    have hfirst : (piece :: rest).map hexText ≠ [[]] := by
      intro heq
      have hempty := map_hexText_nonempty (piece :: rest) []
      rw [heq] at hempty
      cases hempty List.mem_cons_self
    have hside : ((piece :: rest).map hexText).isEmpty = false := rfl
    simp only [hside, Bool.false_eq_true, if_false]
    rw [if_neg hfirst, hcount]
    simpa using hfew

theorem urlGroups_written (address : Ipv6) : Written (urlGroups address.pieces) := by
  have hsmall := address.small
  unfold urlGroups
  split
  · refine ⟨map_hexText_letters hsmall, by simp [address.length_eq], ?_⟩
    rw [areGroups_of_nonempty (map_hexText_nonempty _),
      pieceCount_hexText (by rintro heq; simpa [heq] using address.length_eq) hsmall,
      address.length_eq]
    rfl
  · rename_i start length hcompress
    obtain ⟨hlong, -, hwithin⟩ := compressAt_eq_some hcompress
    have hleft : ∀ piece ∈ address.pieces.take start, piece < 65536 :=
      fun piece hpiece => hsmall piece (List.mem_of_mem_take hpiece)
    have hright : ∀ piece ∈ address.pieces.drop (start + length), piece < 65536 :=
      fun piece hpiece => hsmall piece (List.mem_of_mem_drop hpiece)
    refine ⟨compressedGroups_letters (map_hexText_letters hleft) (map_hexText_letters hright), ?_, ?_⟩
    · have hside : ∀ side : List Text, 1 ≤ (if side.isEmpty then [[]] else side).length := by
        intro side
        cases side <;> simp
      rw [compressedGroups, List.length_append, List.length_cons]
      have := hside ((address.pieces.take start).map hexText)
      omega
    · rw [areGroups_compressed _ (map_hexText_nonempty _)]
      refine isCompressed_hexText hleft hright ?_
      rw [address.length_eq] at hwithin
      rw [List.length_take, List.length_drop, address.length_eq]
      omega

theorem isIP_of_letters {groups : List Text}
    (h : ∀ group ∈ groups, ∀ c ∈ group, c ∈ hexLetters ∨ c = '.')
    (hlength : 2 ≤ groups.length) (hgroups : areGroups groups = true) :
    isIP ([':'].intercalate groups) = 6 := by
  have hmarks : ':' ∉ hexLetters ∧ '%' ∉ hexLetters := by decide
  refine isIP_intercalate (fun group hgroup hc => ?_) (fun group hgroup hc => ?_) hlength hgroups
  · rcases h group hgroup ':' hc with hletter | hdot
    · exact hmarks.1 hletter
    · cases hdot
  · rcases h group hgroup '%' hc with hletter | hdot
    · exact hmarks.2 hletter
    · cases hdot

theorem isIP_urlText (address : Ipv6) : isIP (urlText address) = 6 := by
  obtain ⟨hletters, hseveral, hrecognised⟩ := urlGroups_written address
  exact isIP_of_letters (fun group hgroup c hc => .inl (hletters group hgroup c hc)) hseveral
    hrecognised

theorem dottedText_letters (address : Ipv4) : ∀ c ∈ dottedText address, c ∈ hexLetters ∨ c = '.' := by
  intro c hc
  rcases mem_intercalate hc with hdot | ⟨group, hgroup, hc⟩
  · exact .inr hdot
  · refine .inl ?_
    simp only [List.mem_cons, List.not_mem_nil, or_false] at hgroup
    rcases hgroup with rfl | rfl | rfl | rfl <;> exact (decimalText_octet _).letters c hc

/-- A double colon before at most six pieces, the last two of them dotted. -/
theorem areGroups_dotted (address : Ipv4) : areGroups [[], [], dottedText address] = true ∧
    areGroups [[], [], hexText 0xffff, dottedText address] = true := by
  have hlast : ∃ count, pieceCount [dottedText address] = some count ∧ count ≤ 2 := by
    rw [pieceCount, isIPv4_dottedText]
    split
    · exact ⟨1, rfl, by omega⟩
    · exact ⟨2, rfl, le_rfl⟩
  obtain ⟨count, hcount, hfew⟩ := hlast
  have hnonempty : dottedText address ≠ [] := by
    intro hempty
    have hparts := dottedText_parts address
    rw [hempty, List.splitOn_nil] at hparts
    exact absurd (congrArg List.length hparts) (by simp)
  have hsegment : isSegment (hexText 0xffff) = true := by decide
  constructor
  · have hright : [dottedText address] ≠ [[]] := fun heq => hnonempty (List.cons.inj heq).1
    simp only [areGroups, isCompressed, List.all_nil, Bool.true_and, if_neg hright, hcount]
    simp only [Option.any_some, List.length_nil, decide_eq_true_eq]
    omega
  · have hright : [hexText 0xffff, dottedText address] ≠ [[]] :=
      fun heq => List.cons_ne_nil _ _ (List.cons.inj heq).2
    have htwo : pieceCount [hexText 0xffff, dottedText address] = some (count + 1) := by
      rw [pieceCount, if_pos hsegment, hcount]
      · rfl
      · exact List.cons_ne_nil _ _
    simp only [areGroups, isCompressed, List.all_nil, Bool.true_and, if_neg hright, htwo]
    simp only [Option.any_some, List.length_nil, decide_eq_true_eq]
    omega

theorem isIP_resolvedText (address : Ipv6) : isIP (resolvedText address) = 6 := by
  have hffff : hexText 0xffff ⊆ hexLetters := by decide
  unfold resolvedText resolvedGroups
  split
  · refine isIP_of_letters ?_ (by simp) (areGroups_dotted _).2
    intro group hgroup c hc
    simp only [List.mem_cons, List.not_mem_nil, or_false] at hgroup
    rcases hgroup with rfl | rfl | rfl | rfl
    · cases hc
    · cases hc
    · exact .inl (hffff hc)
    · exact dottedText_letters _ c hc
  · split
    · exact isIP_urlText address
    · refine isIP_of_letters ?_ (by simp) (areGroups_dotted _).1
      intro group hgroup c hc
      simp only [List.mem_cons, List.not_mem_nil, or_false] at hgroup
      rcases hgroup with rfl | rfl | rfl
      · cases hc
      · cases hc
      · exact dottedText_letters _ c hc
  · exact isIP_urlText address

/-! ## How a text begins -/

theorem urlText_letters (address : Ipv6) : ∀ c ∈ urlText address, c ∈ hexLetters ∨ c = ':' := by
  intro c hc
  rcases mem_intercalate hc with hcolon | ⟨group, hgroup, hc⟩
  · exact .inr hcolon
  · exact .inl ((urlGroups_written address).letters group hgroup c hc)

/-- A text whose groups begin with a piece begins with that piece. -/
theorem intercalate_cons (separator : Char) (group : Text) (rest : List Text) :
    ∃ tail, [separator].intercalate (group :: rest) = group ++ tail := by
  cases rest with
  | nil => exact ⟨[], by rw [List.intercalate_singleton, List.append_nil]⟩
  | cons next rest => exact ⟨_, by rw [List.intercalate_cons_cons, List.append_assoc]⟩

/-- A first piece that is not nought is not left out. -/
theorem urlText_first {address : Ipv6} {first : Nat} {rest : List Nat}
    (h : address.pieces = first :: rest) (hfirst : first ≠ 0) :
    ∃ tail, urlText address = hexText first ++ tail := by
  unfold urlText urlGroups
  rw [h]
  split
  · exact intercalate_cons ':' _ _
  · rename_i start length hcompress
    obtain ⟨hlong, hrun, -⟩ := compressAt_eq_some hcompress
    cases start with
    | zero =>
      rw [List.drop_zero, zeroRun, List.takeWhile_cons_of_neg (by simpa using hfirst)] at hrun
      rw [← hrun] at hlong
      cases hlong
    | succ start =>
      rw [compressedGroups, List.take_succ_cons, List.map_cons, if_neg (by simp)]
      exact intercalate_cons ':' _ _

theorem resolvedText_first {address : Ipv6} {first : Nat} {rest : List Nat}
    (h : address.pieces = first :: rest) (hfirst : first ≠ 0) :
    resolvedText address = urlText address := by
  have hgroups : resolvedGroups (first :: rest) = urlGroups (first :: rest) := by
    unfold resolvedGroups
    split
    · rename_i heq
      exact absurd (List.cons.inj heq).1 hfirst
    · rename_i heq
      exact absurd (List.cons.inj heq).1 hfirst
    · rfl
  rw [resolvedText, urlText, h, hgroups]

/-- The three leading digits of a piece of four. -/
theorem hexText_four {piece : Nat} (h : 4096 ≤ piece) :
    hexText piece = [Nat.digitChar (piece / 4096), Nat.digitChar (piece / 256 % 16),
      Nat.digitChar (piece / 16 % 16), Nat.digitChar (piece % 16)] := by
  rw [hexText, if_neg (by omega), if_neg (by omega), if_neg (by omega)]

theorem urlText_mapped {address : Ipv6} {high low : Nat}
    (h : address.pieces = [0, 0, 0, 0, 0, 0xffff, high, low]) :
    urlText address = "::ffff:".toList ++ (hexText high ++ ':' :: hexText low) := by
  have hcompress : compressAt address.pieces = some (0, 5) := by
    rw [h]
    by_cases hhigh : high = 0 <;> by_cases hlow : low = 0 <;>
      simp [compressAt, zeroRun, List.range_succ, hhigh, hlow, List.max?]
  have hgroups : urlGroups address.pieces
      = [[], [], hexText 0xffff, hexText high, hexText low] := by
    rw [urlGroups, hcompress, h]
    rfl
  rw [urlText, hgroups]
  simp [List.intercalate_cons_cons, hexText]

theorem resolvedText_mapped {address : Ipv6} {high low : Nat}
    (h : address.pieces = [0, 0, 0, 0, 0, 0xffff, high, low]) :
    resolvedText address = "::ffff:".toList ++ dottedText (lowIpv4 high low) := by
  rw [resolvedText, h]
  simp [resolvedGroups, List.intercalate_cons_cons, hexText]

end Cryptox.Library
