import Cryptox.Outbound.Sanitizer

/-!
# Tags as the sanitizer writes them

A tag that is kept has an allowed name and attributes from a short list, and its values hold neither
quotation marks nor angle brackets. So it is read back as it was written.
-/
namespace Cryptox.Outbound.Sanitizer

open Cryptox.Backtesting (isJsSpace)
open Cryptox.Library

section Lawful

variable {text token after : Text}

theorem throughClose_append {body : Text} (h : '>' ∉ body) (after : Text) :
    throughClose (body ++ '>' :: after) = some (body ++ ['>'], after) := by
  induction body with
  | nil => rfl
  | cons c body ih =>
    rw [List.mem_cons, not_or] at h
    rw [List.cons_append, throughClose, if_neg fun heq => h.1 heq.symm, ih h.2]
    rfl

theorem throughClose_split (h : throughClose text = some (token, after)) :
    text = token ++ after ∧ token ≠ [] := by
  induction text generalizing token with
  | nil => cases h
  | cons c rest ih =>
    rw [throughClose] at h
    split at h
    · rename_i hc
      cases h
      exact ⟨by rw [hc]; rfl, List.cons_ne_nil _ _⟩
    · obtain ⟨⟨token', after'⟩, hfound, hpair⟩ := Option.map_eq_some_iff.mp h
      obtain ⟨rfl, rfl⟩ := Prod.mk.inj hpair
      exact ⟨by rw [(ih hfound).1]; rfl, List.cons_ne_nil _ _⟩

theorem throughClose_eq_none_iff : throughClose text = none ↔ '>' ∉ text := by
  constructor
  · intro h hmem
    obtain ⟨body, after, rfl, hbody⟩ := List.eq_append_cons_of_mem hmem
    rw [throughClose_append hbody] at h
    cases h
  · intro h
    cases hfound : throughClose text with
    | none => rfl
    | some found =>
      exfalso
      induction text generalizing found with
      | nil => cases hfound
      | cons c rest ih =>
        rw [List.mem_cons, not_or] at h
        rw [throughClose, if_neg fun heq => h.1 heq.symm, Option.map_eq_some_iff] at hfound
        obtain ⟨later, hlater, -⟩ := hfound
        exact ih h.2 later hlater

theorem tagAt_lawful : Lawful tagAt := by
  have hboth : ∀ {text token after}, tagAt text = some (token, after) →
      text = token ++ after ∧ token ≠ [] := by
    intro text token after h
    rw [tagAt.eq_def] at h
    split at h
    · split at h
      · obtain ⟨⟨token', after'⟩, hfound, hpair⟩ := Option.map_eq_some_iff.mp h
        obtain ⟨rfl, rfl⟩ := Prod.mk.inj hpair
        exact ⟨by rw [(throughClose_split hfound).1]; rfl, List.cons_ne_nil _ _⟩
      · cases h
    · split at h
      · obtain ⟨⟨token', after'⟩, hfound, hpair⟩ := Option.map_eq_some_iff.mp h
        obtain ⟨rfl, rfl⟩ := Prod.mk.inj hpair
        exact ⟨by rw [(throughClose_split hfound).1]; rfl, List.cons_ne_nil _ _⟩
      · cases h
    · cases h
  exact ⟨fun h => (hboth h).1, fun h => (hboth h).2⟩

end Lawful

section Clean

/-- An attribute the sanitizer may write. -/
structure CleanAttribute (entry : Text × Text) : Prop where
  name : entry.1 ∈ safeNames
  unquoted : quotationMark ∉ entry.2
  unopened : '<' ∉ entry.2
  unclosed : '>' ∉ entry.2
  href : entry.1 = "href".toList →
    startsWith entry.2 "http:".toList = true ∨ startsWith entry.2 "https:".toList = true

def writtenAttributes (attributes : List (Text × Text)) : Text :=
  attributes.flatMap fun entry => ' ' :: writtenAttribute entry.1 entry.2

/-- A tag the sanitizer may write. -/
inductive CleanTag (name : Text) : Text → Prop where
  | closing : name ∈ allowedTags → CleanTag name ('<' :: '/' :: name ++ ['>'])
  | opening (attributes : List (Text × Text)) (slash : Bool) : name ∈ allowedTags →
      (∀ entry ∈ attributes, CleanAttribute entry) →
      CleanTag name ('<' :: (name ++ writtenAttributes attributes ++
        (if slash then " /".toList else []) ++ ['>']))

theorem CleanTag.allowed {name token : Text} (h : CleanTag name token) : name ∈ allowedTags := by
  cases h with
  | closing hname => exact hname
  | opening _ _ hname _ => exact hname

/-- An allowed name: a letter, then letters and digits, all of them in lower case. -/
structure PlainName (name : Text) : Prop where
  letter : ∃ c rest, name = c :: rest ∧ c.isAlpha = true
  word : ∀ c ∈ name, isWord c = true
  lower : toLowerCase name = name

theorem plainName {name : Text} (h : name ∈ allowedTags) : PlainName name := by
  have hall : (allowedTags.all fun name => name.head?.any (·.isAlpha) && name.all isWord &&
      toLowerCase name == name) = true := by decide
  have hname := List.all_eq_true.mp hall name h
  rw [Bool.and_eq_true, Bool.and_eq_true, List.all_eq_true, beq_iff_eq] at hname
  obtain ⟨⟨hhead, hword⟩, hlower⟩ := hname
  refine ⟨?_, hword, hlower⟩
  cases name with
  | nil => cases hhead
  | cons c rest => exact ⟨c, rest, rfl, hhead⟩

theorem not_mem_of_word {name : Text} (h : PlainName name) {c : Char} (hc : isWord c = false) :
    c ∉ name := fun hmem => by
  rw [h.word c hmem] at hc
  cases hc

/-- What stands between the angle brackets of a clean tag. -/
structure TagBody (body : Text) : Prop where
  unopened : '<' ∉ body
  unclosed : '>' ∉ body
  last : body.getLast? ≠ some '-'
  start : (∃ c rest, body = c :: rest ∧ c.isAlpha = true) ∨
    ∃ c rest, body = '/' :: c :: rest ∧ c.isAlpha = true

theorem not_mem_writtenAttributes {attributes : List (Text × Text)}
    (hclean : ∀ entry ∈ attributes, CleanAttribute entry) :
    '<' ∉ writtenAttributes attributes ∧ '>' ∉ writtenAttributes attributes := by
  have hnames : (safeNames.all fun name => !name.contains '<' && !name.contains '>') = true := by
    decide
  have hentry : ∀ entry ∈ attributes, '<' ∉ (' ' :: writtenAttribute entry.1 entry.2) ∧
      '>' ∉ (' ' :: writtenAttribute entry.1 entry.2) := by
    intro entry hmem
    have h := hclean entry hmem
    have hname := List.all_eq_true.mp hnames entry.1 h.name
    rw [Bool.and_eq_true, Bool.not_eq_true', Bool.not_eq_true'] at hname
    have hopen : '<' ∉ entry.1 := by simpa using hname.1
    have hclose : '>' ∉ entry.1 := by simpa using hname.2
    have hopen' := h.unopened
    have hclose' := h.unclosed
    constructor
    · simp [writtenAttribute, quotationMark, hopen, hopen']
    · simp [writtenAttribute, quotationMark, hclose, hclose']
  constructor
  · intro hmem
    obtain ⟨entry, hentry', hc⟩ := List.mem_flatMap.mp hmem
    exact (hentry entry hentry').1 hc
  · intro hmem
    obtain ⟨entry, hentry', hc⟩ := List.mem_flatMap.mp hmem
    exact (hentry entry hentry').2 hc

theorem getLast_writtenAttributes {attributes : List (Text × Text)} (h : attributes ≠ []) :
    ∃ init, writtenAttributes attributes = init ++ [quotationMark] := by
  obtain ⟨front, entry, rfl⟩ := List.eq_nil_or_concat attributes |>.resolve_left h
  refine ⟨writtenAttributes front ++ ' ' :: (entry.1 ++ '=' :: quotationMark :: entry.2), ?_⟩
  simp [writtenAttributes, writtenAttribute]

/-- The end of a clean tag, up to its closing bracket. -/
theorem last_ne_dash {name : Text} (hname : PlainName name) (attributes : List (Text × Text))
    (slash : Bool) : (name ++ writtenAttributes attributes ++
      (if slash then " /".toList else [])).getLast? ≠ some '-' := by
  cases slash with
  | true =>
    have hend : (" /".toList : Text) = [' '] ++ ['/'] := rfl
    rw [if_pos rfl, hend, ← List.append_assoc, List.getLast?_concat]
    decide
  | false =>
    rw [if_neg Bool.false_ne_true, List.append_nil]
    by_cases hnone : attributes = []
    · rw [hnone, writtenAttributes, List.flatMap_nil, List.append_nil]
      intro hlast
      have hword := hname.word _ (List.mem_of_getLast? hlast)
      revert hword
      decide
    · obtain ⟨init, hinit⟩ := getLast_writtenAttributes hnone
      rw [hinit, ← List.append_assoc, List.getLast?_concat]
      decide

theorem CleanTag.body {name token : Text} (h : CleanTag name token) :
    ∃ body, token = '<' :: (body ++ ['>']) ∧ TagBody body := by
  have hplain := plainName h.allowed
  have hopen := not_mem_of_word hplain (c := '<') (by decide)
  have hclose := not_mem_of_word hplain (c := '>') (by decide)
  obtain ⟨c, rest, hname, hletter⟩ := hplain.letter
  cases h with
  | closing hallowed =>
    refine ⟨'/' :: name, rfl, ⟨by simp [hopen], by simp [hclose], ?_, ?_⟩⟩
    · have hne : name ≠ [] := by simp [hname]
      intro hlast
      rw [List.getLast?_cons, List.getLast?_eq_some_getLast hne] at hlast
      have hword := hplain.word _ (List.getLast_mem hne)
      rw [Option.getD_some, Option.some_inj] at hlast
      rw [hlast] at hword
      revert hword
      decide
    · exact Or.inr ⟨c, rest, by rw [hname], hletter⟩
  | opening attributes slash hallowed hclean =>
    obtain ⟨hopen', hclose'⟩ := not_mem_writtenAttributes hclean
    refine ⟨name ++ writtenAttributes attributes ++ (if slash then " /".toList else []), rfl,
      ⟨?_, ?_, last_ne_dash hplain attributes slash, ?_⟩⟩
    · cases slash <;> simp [hopen, hopen']
    · cases slash <;> simp [hclose, hclose']
    · refine Or.inl ⟨c, rest ++ writtenAttributes attributes ++
        (if slash then " /".toList else []), ?_, hletter⟩
      rw [hname, List.cons_append, List.cons_append]

theorem tagAt_closing {c : Char} (h : c.isAlpha = true) (rest : Text) :
    tagAt ('<' :: '/' :: c :: rest) =
      (throughClose rest).map fun found => ('<' :: '/' :: c :: found.1, found.2) := by
  rw [tagAt, if_pos h]

theorem tagAt_opening {c : Char} (h : c.isAlpha = true) (rest : Text) :
    tagAt ('<' :: c :: rest) =
      (throughClose rest).map fun found => ('<' :: c :: found.1, found.2) := by
  have hslash : c ≠ '/' := fun heq => by
    rw [heq] at h
    revert h
    decide
  rw [tagAt.eq_def]
  split
  · rename_i heq
    simp only [List.cons.injEq] at heq
    exact absurd heq.2.1 hslash
  · rename_i heq
    simp only [List.cons.injEq, true_and] at heq
    obtain ⟨rfl, rfl⟩ := heq
    rw [if_pos h]
  · rename_i hno
    exact absurd rfl (hno c rest)

/-- A tag is found where it was written, whatever follows. -/
theorem TagBody.tagAt {body : Text} (h : TagBody body) (after : Text) :
    tagAt ('<' :: (body ++ ['>']) ++ after) = some ('<' :: (body ++ ['>']), after) := by
  have hunclosed := h.unclosed
  obtain ⟨c, rest, rfl, hletter⟩ | ⟨c, rest, rfl, hletter⟩ := h.start
  · rw [List.mem_cons, not_or] at hunclosed
    simp only [List.cons_append, List.append_assoc, List.nil_append]
    rw [tagAt_opening hletter, throughClose_append hunclosed.2 after]
    rfl
  · rw [List.mem_cons, List.mem_cons, not_or, not_or] at hunclosed
    simp only [List.cons_append, List.append_assoc, List.nil_append]
    rw [tagAt_closing hletter, throughClose_append hunclosed.2.2 after]
    rfl

end Clean

section Written

variable {resolve : Text → Url → Option Url} {baseUrl : Url}

theorem escapeCharacter_plain {c d : Char} (hd : d ∈ escapeCharacter c) :
    d ≠ quotationMark ∧ d ≠ '<' ∧ d ≠ '>' := by
  have hentities : (["&amp;", "&quot;", "&lt;", "&gt;"].all fun entity => entity.toList.all fun d =>
      d != quotationMark && d != '<' && d != '>') = true := by decide
  have hentity : ∀ entity ∈ ["&amp;", "&quot;", "&lt;", "&gt;"], d ∈ entity.toList →
      d ≠ quotationMark ∧ d ≠ '<' ∧ d ≠ '>' := by
    intro entity hmem hd
    have hall := List.all_eq_true.mp (List.all_eq_true.mp hentities entity hmem) d hd
    simpa [and_assoc] using hall
  rw [escapeCharacter] at hd
  split_ifs at hd with hamp hquote hopen hclose
  · exact hentity _ (by simp) hd
  · exact hentity _ (by simp) hd
  · exact hentity _ (by simp) hd
  · exact hentity _ (by simp) hd
  · rw [List.mem_singleton.mp hd]
    exact ⟨hquote, hopen, hclose⟩

theorem not_mem_escapeAttribute (value : Text) : quotationMark ∉ escapeAttribute value ∧
    '<' ∉ escapeAttribute value ∧ '>' ∉ escapeAttribute value := by
  have hplain : ∀ d ∈ escapeAttribute value, d ≠ quotationMark ∧ d ≠ '<' ∧ d ≠ '>' := by
    intro d hd
    obtain ⟨c, -, hd⟩ := List.mem_flatMap.mp hd
    exact escapeCharacter_plain hd
  exact ⟨fun h => (hplain _ h).1 rfl, fun h => (hplain _ h).2.1 rfl, fun h => (hplain _ h).2.2 rfl⟩

/-- A serialized URL begins with its protocol. -/
def StartsWithProtocol (resolve : Text → Url → Option Url) : Prop :=
  ∀ text baseUrl url, resolve text baseUrl = some url → startsWith url.href url.protocol = true

theorem startsWith_escapeAttribute {value protocol : Text}
    (hprotocol : protocol ∈ ["http:".toList, "https:".toList])
    (h : startsWith value protocol = true) :
    startsWith (escapeAttribute value) protocol = true := by
  have hsame : ∀ protocol ∈ ["http:".toList, "https:".toList],
      escapeAttribute protocol = protocol := by decide
  rw [startsWith, List.isPrefixOf_iff_prefix] at h ⊢
  obtain ⟨rest, rfl⟩ := h
  have happend : escapeAttribute (protocol ++ rest) =
      escapeAttribute protocol ++ escapeAttribute rest := List.flatMap_append
  refine ⟨escapeAttribute rest, ?_⟩
  rw [happend, hsame protocol hprotocol]

theorem safeAttribute_clean (hresolve : StartsWithProtocol resolve) {name value written : Text}
    (h : safeAttribute resolve baseUrl name value = some written) :
    ∃ entry, CleanAttribute entry ∧ written = writtenAttribute entry.1 entry.2 := by
  rw [safeAttribute] at h
  split at h
  · cases h
  · rename_i hsafe
    rw [Bool.not_eq_true, Bool.or_eq_false_iff, Bool.not_eq_false', List.contains_iff_mem] at hsafe
    split at h
    · rename_i hhref
      split at h
      · cases h
      · rename_i href hresolved
        split at h
        · cases h
        · rename_i hprotocol
          rw [Bool.not_eq_true, Bool.or_eq_false_iff, Bool.or_eq_false_iff, Bool.not_eq_false',
            List.contains_iff_mem] at hprotocol
          obtain ⟨hunquoted, hunopened, hunclosed⟩ := not_mem_escapeAttribute href.href
          have hstarts := startsWith_escapeAttribute hprotocol.1.1 (hresolve _ _ _ hresolved)
          refine ⟨("href".toList, escapeAttribute href.href),
            ⟨hhref ▸ hsafe.1, hunquoted, hunopened, hunclosed, fun _ => ?_⟩,
            (Option.some.inj h).symm⟩
          simp only [List.mem_cons, List.not_mem_nil, or_false] at hprotocol
          obtain heq | heq := hprotocol.1.1
          · exact Or.inl (heq ▸ hstarts)
          · exact Or.inr (heq ▸ hstarts)
    · rename_i hhref
      obtain ⟨hunquoted, hunopened, hunclosed⟩ :=
        not_mem_escapeAttribute (sliceUnits 2000 (trimText value))
      exact ⟨(toLowerCase name, escapeAttribute (sliceUnits 2000 (trimText value))),
        ⟨hsafe.1, hunquoted, hunopened, hunclosed, fun heq => absurd heq hhref⟩,
        (Option.some.inj h).symm⟩

theorem keptAttributes_clean (hresolve : StartsWithProtocol resolve)
    (attributes : List (Text × Option Text)) :
    ∃ kept, (∀ entry ∈ kept, CleanAttribute entry) ∧
      keptAttributes resolve baseUrl attributes = writtenAttributes kept := by
  induction attributes with
  | nil => exact ⟨[], fun _ h => absurd h List.not_mem_nil, rfl⟩
  | cons entry attributes ih =>
    obtain ⟨kept, hclean, hkept⟩ := ih
    have hcons : keptAttributes resolve baseUrl (entry :: attributes) =
        keptAttributes resolve baseUrl [entry] ++ keptAttributes resolve baseUrl attributes := by
      simp [keptAttributes]
    rw [hcons, hkept]
    cases hvalue : entry.2.bind (safeAttribute resolve baseUrl entry.1) with
    | none =>
      refine ⟨kept, hclean, ?_⟩
      simp [keptAttributes, hvalue]
    | some written =>
      obtain ⟨value, -, hsafe⟩ := Option.bind_eq_some_iff.mp hvalue
      obtain ⟨first, hfirst, hwritten⟩ := safeAttribute_clean hresolve hsafe
      refine ⟨first :: kept, fun other hother => ?_, ?_⟩
      · rcases List.mem_cons.mp hother with rfl | hother
        · exact hfirst
        · exact hclean other hother
      · simp [keptAttributes, writtenAttributes, hvalue, hwritten]

/-- A tag of an allowed name is written as a clean one. -/
theorem sanitizeTag_clean (hresolve : StartsWithProtocol resolve) {token name rest : Text}
    {closing : Bool} (hsplit : splitTag token = some (closing, name, rest))
    (hname : toLowerCase name ∈ allowedTags) :
    CleanTag (toLowerCase name) (sanitizeTag resolve baseUrl token) := by
  rw [sanitizeTag, hsplit]
  dsimp only
  rw [if_neg (by simpa using hname)]
  cases closing with
  | true =>
    rw [if_pos rfl]
    exact .closing hname
  | false =>
    obtain ⟨kept, hclean, hkept⟩ : ∃ kept, (∀ entry ∈ kept, CleanAttribute entry) ∧
        keptAttributes resolve baseUrl (attributesOf (withoutSlash rest.dropLast)) =
          writtenAttributes kept := keptAttributes_clean hresolve _
    rw [if_neg Bool.false_ne_true, hkept, show "<".toList = ['<'] from rfl,
      show ">".toList = ['>'] from rfl]
    have hopening := CleanTag.opening kept
      (voidTags.contains (toLowerCase name) || closesItself rest) hname hclean
    simpa only [List.append_assoc, List.cons_append, List.nil_append] using hopening

/-- Any other tag is dropped. -/
theorem sanitizeTag_eq_nil {token : Text} (h : tagName token ∉ allowedTags) :
    sanitizeTag resolve baseUrl token = [] := by
  rw [tagName] at h
  rw [sanitizeTag]
  cases hsplit : splitTag token with
  | none => rfl
  | some parts =>
    obtain ⟨closing, name, rest⟩ := parts
    rw [hsplit] at h
    dsimp only at h ⊢
    rw [if_pos (by simpa using h)]

end Written

section ReadBack

theorem isJsSpace_of_isAlpha {c : Char} (h : c.isAlpha = true) : isJsSpace c = false := by
  have hrange : (65 ≤ c.toNat ∧ c.toNat ≤ 90) ∨ (97 ≤ c.toNat ∧ c.toNat ≤ 122) := by
    have hcases : c.isUpper = true ∨ c.isLower = true := Bool.or_eq_true_iff.mp h
    rcases hcases with hupper | hlower
    · have hval : 'A'.val ≤ c.val ∧ c.val ≤ 'Z'.val := of_decide_eq_true hupper
      rw [UInt32.le_iff_toNat_le, UInt32.le_iff_toNat_le] at hval
      exact .inl hval
    · have hval : decide ('a'.val ≤ c.val) = true ∧ decide (c.val ≤ 'z'.val) = true :=
        Bool.and_eq_true_iff.mp hlower
      rw [decide_eq_true_eq, decide_eq_true_eq, UInt32.le_iff_toNat_le,
        UInt32.le_iff_toNat_le] at hval
      exact .inr hval
  simp only [isJsSpace, Bool.or_eq_false_iff, Bool.and_eq_false_iff, decide_eq_false_iff_not,
    List.contains_eq_mem, List.mem_cons, List.not_mem_nil, or_false, not_or]
  omega

theorem takeWhile_append_stop {p : Char → Bool} {front tail : Text} (hfront : ∀ c ∈ front, p c = true)
    (htail : tail.head?.any p = false) :
    (front ++ tail).takeWhile p = front ∧ (front ++ tail).dropWhile p = tail := by
  rw [List.takeWhile_append_of_pos hfront, List.dropWhile_append_of_pos hfront]
  cases tail with
  | nil => exact ⟨List.append_nil _, rfl⟩
  | cons c tail =>
    rw [List.head?_cons, Option.any_some] at htail
    rw [List.takeWhile_cons_of_neg (by simp [htail]), List.append_nil,
      List.dropWhile_cons_of_neg (by simp [htail])]
    exact ⟨rfl, rfl⟩

theorem splitName_plain {name tail : Text} (hname : PlainName name)
    (htail : tail.head?.any isNameChar = false) (closing : Bool) :
    splitName closing (name ++ tail) = some (closing, name, tail) ∧
      (name ++ tail).dropWhile isJsSpace = name ++ tail := by
  obtain ⟨c, rest, rfl, hletter⟩ := hname.letter
  have hrest : ∀ d ∈ rest, isNameChar d = true := fun d hd => by
    rw [isNameChar, hname.word d (List.mem_cons_of_mem _ hd), Bool.true_or]
  obtain ⟨htake, hdrop⟩ := takeWhile_append_stop hrest htail
  refine ⟨?_, ?_⟩
  · rw [List.cons_append, splitName, if_pos hletter, htake, hdrop]
  · rw [List.cons_append,
      List.dropWhile_cons_of_neg (by rw [isJsSpace_of_isAlpha hletter]; exact Bool.false_ne_true)]

theorem splitTag_opening {name tail : Text} (hname : PlainName name)
    (htail : tail.head?.any isNameChar = false) :
    splitTag ('<' :: (name ++ tail)) = some (false, name, tail) := by
  obtain ⟨hsplit, hspace⟩ := splitName_plain hname htail false
  obtain ⟨c, rest, rfl, hletter⟩ := hname.letter
  have hslash : c ≠ '/' := fun heq => by
    rw [heq] at hletter
    revert hletter
    decide
  rw [splitTag.eq_def]
  split
  · rename_i heq
    simp only [List.cons_append, List.cons.injEq] at heq
    exact absurd heq.2.1 hslash
  · rename_i heq
    simp only [List.cons.injEq, true_and] at heq
    rw [← heq, hspace, hsplit]
  · rename_i hno
    exact absurd rfl (hno _)

theorem splitTag_closing {name tail : Text} (hname : PlainName name)
    (htail : tail.head?.any isNameChar = false) :
    splitTag ('<' :: '/' :: (name ++ tail)) = some (true, name, tail) := by
  obtain ⟨hsplit, hspace⟩ := splitName_plain hname htail true
  rw [splitTag, hspace, hsplit]

/-- What follows the name of a tag that opens. -/
theorem head_tail (attributes : List (Text × Text)) (slash : Bool) :
    ((writtenAttributes attributes ++ (if slash then " /".toList else []) ++ ['>']).head?.any
      isNameChar) = false := by
  cases attributes with
  | nil => cases slash <;> decide
  | cons entry attributes =>
    have hhead : (writtenAttributes (entry :: attributes) ++ (if slash then " /".toList else []) ++
        ['>']).head? = some ' ' := rfl
    rw [hhead]
    decide

/-- A clean tag is split as it was put together. -/
theorem CleanTag.splitTag {name token : Text} (h : CleanTag name token) :
    ∃ closing attributes, (∀ entry ∈ attributes, CleanAttribute entry) ∧ ∃ slash : Bool,
      splitTag token = some (closing, name, writtenAttributes attributes ++
        (if slash then " /".toList else []) ++ ['>']) := by
  have hplain := plainName h.allowed
  cases h with
  | closing hname =>
    exact ⟨true, [], fun _ h => absurd h List.not_mem_nil, false,
      splitTag_closing hplain (head_tail [] false)⟩
  | opening attributes slash hname hclean =>
    refine ⟨false, attributes, hclean, slash, ?_⟩
    rw [List.append_assoc, List.append_assoc, ← List.append_assoc (writtenAttributes attributes)]
    exact splitTag_opening hplain (head_tail attributes slash)

theorem CleanTag.tagName {name token : Text} (h : CleanTag name token) : tagName token = name := by
  obtain ⟨closing, attributes, -, slash, hsplit⟩ := h.splitTag
  rw [Sanitizer.tagName, hsplit]
  exact (plainName h.allowed).lower

/-- The blank before the slash stays. -/
theorem withoutSlash_written {attributes : List (Text × Text)} (slash : Bool) :
    withoutSlash (writtenAttributes attributes ++ (if slash then " /".toList else [])) =
      writtenAttributes attributes ++ (if slash then [' '] else []) := by
  cases slash with
  | true =>
    have hend : writtenAttributes attributes ++ (if true then " /".toList else []) =
        (writtenAttributes attributes ++ [' ']) ++ ['/'] := by simp
    have hstrip : ((writtenAttributes attributes ++ [' ']) ++ ['/']).rdropWhile isJsSpace =
        (writtenAttributes attributes ++ [' ']) ++ ['/'] :=
      List.rdropWhile_concat_neg _ _ _ (by decide)
    rw [hend, withoutSlash, hstrip, List.getLast?_concat, if_pos rfl, List.dropLast_concat]
    rfl
  | false =>
    rw [if_neg Bool.false_ne_true, List.append_nil, withoutSlash, if_neg Bool.false_ne_true,
      List.append_nil]
    by_cases hnone : attributes = []
    · rw [hnone]
      rfl
    · obtain ⟨init, hinit⟩ := getLast_writtenAttributes hnone
      rw [hinit, List.rdropWhile_concat_neg _ _ _ (by decide), List.getLast?_concat,
        if_neg (by decide)]

/-- An attribute is read back, and what follows it is read next. -/
theorem attributesWithin_written {entry : Text × Text} (hclean : CleanAttribute entry)
    {bound : Nat} {rest : Text}
    (hbound : (' ' :: writtenAttribute entry.1 entry.2 ++ rest).length ≤ bound) :
    ∃ bound', rest.length ≤ bound' ∧
      attributesWithin bound (' ' :: writtenAttribute entry.1 entry.2 ++ rest) =
        (entry.1, some entry.2) :: attributesWithin bound' rest := by
  obtain ⟨name, value⟩ := entry
  have hnames : (safeNames.all fun name => !name.isEmpty && name.all isAttributeChar) = true := by
    decide
  have hname := List.all_eq_true.mp hnames name hclean.name
  rw [Bool.and_eq_true, Bool.not_eq_true', List.all_eq_true] at hname
  obtain ⟨hne, hchars⟩ := hname
  obtain ⟨c, name, rfl⟩ := List.exists_cons_of_ne_nil (List.isEmpty_eq_false_iff.mp hne)
  have hunquoted := hclean.unquoted
  dsimp only at hunquoted hbound ⊢
  have hvalue : quoted quotationMark (value ++ quotationMark :: rest) = some (value, rest) := by
    have hmem : (value ++ quotationMark :: rest).contains quotationMark = true := by simp
    have hstop : (quotationMark :: rest).head?.any (· != quotationMark) = false := by simp
    have hinside : ∀ d ∈ value, (d != quotationMark) = true := by
      intro d hd
      refine bne_iff_ne.mpr fun heq => hunquoted ?_
      rw [← heq]
      exact hd
    obtain ⟨htake, hdrop⟩ := takeWhile_append_stop hinside hstop
    rw [quoted, if_pos hmem, htake, hdrop]
    rfl
  have hassigned : assigned ('=' :: quotationMark :: (value ++ quotationMark :: rest)) =
      (some value, rest) := by
    have hspace : ('=' :: quotationMark :: (value ++ quotationMark :: rest)).dropWhile isJsSpace =
        '=' :: quotationMark :: (value ++ quotationMark :: rest) :=
      List.dropWhile_cons_of_neg (by decide)
    have hread : valueAt ((quotationMark :: (value ++ quotationMark :: rest)).dropWhile
        isJsSpace) = some (value, rest) := by
      rw [List.dropWhile_cons_of_neg (by decide), valueAt, if_pos rfl, hvalue]
    simp only [assigned, hspace, hread]
  have hstop : ('=' :: quotationMark :: (value ++ quotationMark :: rest)).head?.any
      isAttributeChar = false := by
    rw [List.head?_cons]
    decide
  obtain ⟨htake, hdrop⟩ := takeWhile_append_stop
    (fun d hd => hchars d (List.mem_cons_of_mem c hd)) hstop
  have htext : ' ' :: writtenAttribute (c :: name) value ++ rest =
      ' ' :: c :: (name ++ '=' :: quotationMark :: (value ++ quotationMark :: rest)) := by
    simp [writtenAttribute]
  rw [htext] at hbound ⊢
  simp only [List.length_cons, List.length_append] at hbound
  obtain ⟨bound, rfl⟩ := Nat.exists_eq_add_of_le (by omega : 2 ≤ bound)
  refine ⟨bound, by omega, ?_⟩
  rw [Nat.add_comm, attributesWithin, if_neg (by decide), attributesWithin,
    if_pos (hchars c List.mem_cons_self), htake, hdrop, hassigned]

theorem attributesWithin_writtenAttributes {attributes : List (Text × Text)}
    (hclean : ∀ entry ∈ attributes, CleanAttribute entry) (slash : Bool) {bound : Nat}
    (hbound : (writtenAttributes attributes ++ (if slash then [' '] else [])).length ≤ bound) :
    attributesWithin bound (writtenAttributes attributes ++ (if slash then [' '] else [])) =
      attributes.map fun entry => (entry.1, some entry.2) := by
  induction attributes generalizing bound with
  | nil =>
    cases slash with
    | false => cases bound <;> rfl
    | true =>
      cases bound with
      | zero => simp [writtenAttributes] at hbound
      | succ bound =>
        rw [writtenAttributes, List.flatMap_nil, if_pos rfl, List.nil_append, attributesWithin,
          if_neg (by decide)]
        cases bound <;> rfl
  | cons entry attributes ih =>
    have htext : writtenAttributes (entry :: attributes) ++ (if slash then [' '] else []) =
        ' ' :: writtenAttribute entry.1 entry.2 ++
          (writtenAttributes attributes ++ (if slash then [' '] else [])) := by
      simp [writtenAttributes]
    rw [htext] at hbound ⊢
    obtain ⟨bound', hrest, hfirst⟩ :=
      attributesWithin_written (hclean entry List.mem_cons_self) hbound
    rw [hfirst, ih (fun other hother => hclean other (List.mem_cons_of_mem _ hother)) hrest,
      List.map_cons]

/-- The attributes of a clean tag are the ones it was written with. -/
theorem CleanTag.tagAttributes {name token : Text} (h : CleanTag name token) :
    ∃ attributes : List (Text × Text), (∀ entry ∈ attributes, CleanAttribute entry) ∧
      tagAttributes token = attributes.map fun entry => (entry.1, some entry.2) := by
  obtain ⟨closing, attributes, hclean, slash, hsplit⟩ := h.splitTag
  refine ⟨attributes, hclean, ?_⟩
  rw [Sanitizer.tagAttributes, hsplit]
  dsimp only
  rw [List.dropLast_concat, withoutSlash_written, attributesOf,
    attributesWithin_writtenAttributes hclean slash le_rfl]

end ReadBack

end Cryptox.Outbound.Sanitizer
