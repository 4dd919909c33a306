import Cryptox.Outbound.CleanTags

/-!
# Pages after the sanitizer

The sanitizer copies what stands between the tags. Where a tag is dropped, the text before it and
the text behind it are joined, and may form a tag or a comment that was never looked at. Where they
do not, the tags of the page are the ones that were written, and a second pass finds the same.
-/
namespace Cryptox.Outbound.Sanitizer

open Cryptox.Backtesting (isJsSpace)
open Cryptox.Library

section Joined

/-! A page whose dropped tags are taken out, as the characters that are copied, with `none` for a
tag that is kept. -/

/-- A tag begins in the copied text. -/
def opensTag : List (Option Char) → Bool
  | some '<' :: some '/' :: some c :: _ => c.isAlpha
  | some '<' :: some c :: _ => c.isAlpha
  | _ => false

/-- The end of a tag, if one has begun. -/
def closes : Option Char → Bool
  | some c => c == '>'
  | none => true

/-- The copied text begins a tag that ends. -/
def joinsTag : List (Option Char) → Bool
  | [] => false
  | first :: rest => (opensTag (first :: rest) && rest.any closes) || joinsTag rest

def opensComment : List (Option Char) → Bool
  | some '<' :: some '!' :: some '-' :: some '-' :: _ => true
  | _ => false

def startsArrow : List (Option Char) → Bool
  | some '-' :: some '-' :: some '>' :: _ => true
  | _ => false

def arrowLater : List (Option Char) → Bool
  | [] => false
  | first :: rest => startsArrow (first :: rest) || arrowLater rest

/-- The copied text begins a comment that ends. -/
def joinsComment : List (Option Char) → Bool
  | [] => false
  | first :: rest => (opensComment (first :: rest) && arrowLater (rest.drop 3)) || joinsComment rest

def keeps : Piece Char → Bool
  | .item _ => true
  | .found token => allowedTags.contains (tagName token)

/-- The page without the tags that are dropped. -/
def remaining (html : Text) : List (Piece Char) := (scan tagAt html).filter keeps

/-- Dropping tags joins nothing into a tag or a comment. -/
def staysSeparate (rawHtml : Text) : Bool :=
  let copied := (remaining (withoutUnsafeBlocks rawHtml)).map Piece.item?
  !joinsTag copied && !joinsComment copied

end Joined

/-- The matches of the pattern of tags. -/
def tagsOf (html : Text) : List Text := (scan tagAt html).filterMap Piece.token?

/-- An allowed tag, its attributes from the short list, its links of the two protocols. -/
structure AllowedTag (token : Text) : Prop where
  name : tagName token ∈ allowedTags
  attributes : ∀ entry ∈ tagAttributes token, toLowerCase entry.1 ∈ safeNames
  href : ∀ entry ∈ tagAttributes token, toLowerCase entry.1 = "href".toList →
    ∃ value ∈ entry.2,
      startsWith value "http:".toList = true ∨ startsWith value "https:".toList = true

theorem CleanTag.allowedTag {name token : Text} (h : CleanTag name token) : AllowedTag token := by
  have hlower : ∀ name ∈ safeNames, toLowerCase name = name := by decide
  obtain ⟨attributes, hclean, hattributes⟩ := h.tagAttributes
  refine ⟨h.tagName ▸ h.allowed, fun entry hentry => ?_, fun entry hentry hhref => ?_⟩
  · rw [hattributes] at hentry
    obtain ⟨written, hwritten, rfl⟩ := List.mem_map.mp hentry
    rw [hlower _ (hclean written hwritten).name]
    exact (hclean written hwritten).name
  · rw [hattributes] at hentry
    obtain ⟨written, hwritten, rfl⟩ := List.mem_map.mp hentry
    rw [hlower _ (hclean written hwritten).name] at hhref
    exact ⟨written.2, rfl, (hclean written hwritten).href hhref⟩

section Texts

theorem isAlpha_of_toLower {c letter : Char} (h : c.toLower = letter)
    (hletter : letter.isAlpha = true) : c.isAlpha = true := by
  by_cases hupper : c.val ≥ 'A'.val ∧ c.val ≤ 'Z'.val
  · have hcase : c.isUpper = true := decide_eq_true hupper
    exact Bool.or_eq_true_iff.mpr (.inl hcase)
  · have hsame : c.toLower = c := dif_neg hupper
    rw [← hsame, h]
    exact hletter

theorem ne_of_isAlpha {c d : Char} (h : c.isAlpha = true) (hd : d.isAlpha = false) : c ≠ d := by
  intro heq
  rw [heq, hd] at h
  cases h

/-- The text behind an opening bracket begins a tag. -/
def opensName : Text → Bool
  | [] => false
  | c :: rest => c.isAlpha || (c == '/' && rest.head?.any (·.isAlpha))

theorem tagAt_eq_none_iff {c : Char} {text : Text} :
    tagAt (c :: text) = none ↔ (c = '<' → opensName text = true → '>' ∉ text) := by
  rw [tagAt.eq_def]
  split
  · rename_i d rest heq
    simp only [List.cons.injEq] at heq
    obtain ⟨rfl, rfl⟩ := heq
    have hname : opensName ('/' :: d :: rest) = d.isAlpha := by simp [opensName]
    rw [hname]
    by_cases hd : d.isAlpha = true
    · have hne := ne_of_isAlpha hd (d := '>') (by decide)
      rw [if_pos hd, Option.map_eq_none_iff, throughClose_eq_none_iff]
      simp [hd, hne.symm]
    · simp [hd]
  · rename_i d rest hno heq
    simp only [List.cons.injEq] at heq
    obtain ⟨rfl, rfl⟩ := heq
    by_cases hd : d.isAlpha = true
    · have hne := ne_of_isAlpha hd (d := '>') (by decide)
      rw [if_pos hd, Option.map_eq_none_iff, throughClose_eq_none_iff]
      simp [opensName, hd, hne.symm]
    · have hname : opensName (d :: rest) = false := by
        rw [Bool.eq_false_iff]
        intro hopens
        simp only [opensName, Bool.or_eq_true, Bool.and_eq_true, beq_iff_eq] at hopens
        obtain hopens | ⟨hslash, hnext⟩ := hopens
        · exact hd hopens
        · cases rest with
          | nil => simp at hnext
          | cons e rest => exact hno e rest hslash rfl
      simp [hd, hname]
  · rename_i hno hno'
    constructor
    · intro _ hc hopens
      subst hc
      cases text with
      | nil => simp [opensName] at hopens
      | cons d rest => exact absurd rfl (hno' d rest)
    · exact fun _ => rfl

end Texts

section Pieces

variable {pieces : List (Piece Char)}

/-- The tags among the pieces are as the sanitizer writes them. -/
def CleanPieces (pieces : List (Piece Char)) : Prop :=
  ∀ token, Piece.found token ∈ pieces → ∃ name, CleanTag name token

theorem CleanPieces.tail {piece : Piece Char} (h : CleanPieces (piece :: pieces)) :
    CleanPieces pieces := fun token hmem => h token (List.mem_cons_of_mem _ hmem)

theorem CleanPieces.head {token : Text} (h : CleanPieces (.found token :: pieces)) :
    ∃ body, token = '<' :: (body ++ ['>']) ∧ TagBody body := by
  obtain ⟨name, hclean⟩ := h token List.mem_cons_self
  exact hclean.body

theorem mem_close_iff (h : CleanPieces pieces) :
    '>' ∈ render pieces ↔ (pieces.map Piece.item?).any closes = true := by
  induction pieces with
  | nil => simp
  | cons piece pieces ih =>
    cases piece with
    | item c =>
      rw [render_item, List.mem_cons, ih h.tail, List.map_cons, List.any_cons, Bool.or_eq_true]
      exact or_congr_left ⟨fun heq => beq_iff_eq.mpr heq.symm, fun heq => (beq_iff_eq.mp heq).symm⟩
    | found token =>
      obtain ⟨body, rfl, -⟩ := h.head
      have hmem : '>' ∈ '<' :: (body ++ ['>']) := by simp
      exact iff_of_true (List.mem_append_left _ hmem) rfl

theorem opensTag_eq (h : CleanPieces pieces) (c : Char) :
    opensTag (some c :: pieces.map Piece.item?) = (c == '<' && opensName (render pieces)) := by
  cases pieces with
  | nil => by_cases hc : c = '<' <;> simp [opensTag, opensName, hc]
  | cons piece pieces =>
    cases piece with
    | found token =>
      obtain ⟨body, rfl, -⟩ := h.head
      have hbracket : opensName (render (.found ('<' :: (body ++ ['>'])) :: pieces)) = false := by
        simp [opensName]
      rw [hbracket, Bool.and_false]
      by_cases hc : c = '<' <;> simp [opensTag, Piece.item?, hc]
    | item d =>
      have hslash : ('/' : Char).isAlpha = false := by decide
      rw [render_item, opensName]
      by_cases hc : c = '<'
      · subst hc
        by_cases hd : d = '/'
        · subst hd
          cases pieces with
          | nil => simp [opensTag, Piece.item?, hslash]
          | cons next pieces =>
            cases next with
            | item e => simp [opensTag, Piece.item?, hslash]
            | found token =>
              obtain ⟨body, rfl, -⟩ := h.tail.head
              have hbracket : ('<' : Char).isAlpha = false := by decide
              simp [opensTag, Piece.item?, hslash, hbracket]
        · simp [opensTag, Piece.item?, hd]
      · simp [opensTag, hc]

/-- Copied text without a tag of its own, and clean tags, are what a scan finds again. -/
theorem parsed_of_separate (h : CleanPieces pieces)
    (hseparate : joinsTag (pieces.map Piece.item?) = false) : Parsed tagAt pieces := by
  induction pieces with
  | nil => trivial
  | cons piece pieces ih =>
    rw [List.map_cons, joinsTag, Bool.or_eq_false_iff] at hseparate
    obtain ⟨hhere, hlater⟩ := hseparate
    cases piece with
    | item c =>
      refine ⟨tagAt_eq_none_iff.mpr fun hc hopens hclose => ?_, ih h.tail hlater⟩
      have hopens' : opensTag (some c :: pieces.map Piece.item?) = true := by
        rw [opensTag_eq h.tail, hc, hopens]
        rfl
      have hcloses := (mem_close_iff h.tail).mp hclose
      simp [Piece.item?, hopens', hcloses] at hhere
    | found token =>
      obtain ⟨body, rfl, hbody⟩ := h.head
      exact ⟨List.cons_ne_nil _ _, hbody.tagAt (render pieces), ih h.tail hlater⟩

/-- A pattern that begins with an opening bracket is not found in a page, if it is found neither at
a character that is copied nor at a tag. -/
theorem not_found_of_pieces {matcher : Matcher Char} (h : CleanPieces pieces)
    (hnil : matcher [] = none) (hbracket : ∀ c rest, c ≠ '<' → matcher (c :: rest) = none)
    (hitem : ∀ c rest, (.item c :: rest) <:+ pieces → matcher (c :: render rest) = none)
    (htag : ∀ name token rest, CleanTag name token → matcher (token ++ rest) = none)
    (before rest : Text) (hrender : render pieces = before ++ rest) : matcher rest = none := by
  induction pieces generalizing before with
  | nil =>
    rw [render_nil] at hrender
    rw [(List.append_eq_nil_iff.mp hrender.symm).2]
    exact hnil
  | cons piece pieces ih =>
    have hlater : ∀ before, render pieces = before ++ rest → matcher rest = none := fun before =>
      ih h.tail (fun c back hback => hitem c back (hback.trans (List.suffix_cons piece pieces)))
        before
    cases piece with
    | item c =>
      rw [render_item] at hrender
      cases before with
      | nil =>
        rw [← List.nil_append rest, ← hrender]
        exact hitem c pieces (List.suffix_refl _)
      | cons d before => exact hlater before (List.cons.inj hrender).2
    | found token =>
      obtain ⟨name, hclean⟩ := h token List.mem_cons_self
      rw [render_found] at hrender
      obtain ⟨middle, hbefore, hpieces⟩ | ⟨middle, htoken, hrest⟩ :=
        List.append_eq_append_iff.mp hrender
      · exact hlater middle hpieces
      · cases before with
        | nil =>
          rw [List.nil_append] at htoken
          rw [hrest, ← htoken]
          exact htag name token _ hclean
        | cons d before =>
          -- the opening bracket of the tag lies before
          cases middle with
          | nil => exact hlater [] hrest.symm
          | cons e middle =>
            obtain ⟨body, heq, hbody⟩ := hclean.body
            rw [heq] at htoken
            have hmem : e ∈ body ++ ['>'] := by
              rw [(List.cons.inj htoken).2]
              simp
            rw [hrest]
            refine hbracket e _ fun he => ?_
            rw [he, List.mem_append, List.mem_singleton] at hmem
            exact hmem.elim hbody.unopened (by decide)

end Pieces

section Blocked

theorem afterName_suffix {name text after : Text} (h : afterName name text = some after) :
    after <:+ text := by
  induction name generalizing text with
  | nil =>
    cases h
    exact List.suffix_refl _
  | cons letter name ih =>
    cases text with
    | nil => cases h
    | cons c text =>
      rw [afterName] at h
      split at h
      · exact (ih h).trans (List.suffix_cons c text)
      · cases h

theorem blockedNames_letters {name : Text} (h : name ∈ blockedNames) :
    (∃ letter rest, name = letter :: rest) ∧ ∀ letter ∈ name, letter.isAlpha = true := by
  have hall : (blockedNames.all fun name => !name.isEmpty && name.all (·.isAlpha)) = true := by
    decide
  have hname := List.all_eq_true.mp hall name h
  rw [Bool.and_eq_true, Bool.not_eq_true', List.all_eq_true] at hname
  exact ⟨List.exists_cons_of_ne_nil (List.isEmpty_eq_false_iff.mp hname.1), hname.2⟩

/-- A blocked element that is found begins with its name and a tag that ends. -/
theorem blockedAt_cases {text : Text} (h : blockedAt ('<' :: text) ≠ none) :
    (∃ name ∈ blockedNames, ∃ after, afterName name text = some after ∧
      after.head?.any isWord = false) ∧ opensName text = true ∧ '>' ∈ text := by
  rw [blockedAt, matching, ne_eq, Option.map_eq_none_iff, ← ne_eq, Option.ne_none_iff_exists'] at h
  obtain ⟨after, hafter⟩ := h
  obtain ⟨name, hname, helement⟩ := List.exists_of_findSome?_eq_some hafter
  rw [afterElement] at helement
  split at helement
  · cases helement
  · rename_i rest hrest
    split at helement
    · cases helement
    · rename_i hboundary
      rw [Bool.not_eq_true] at hboundary
      obtain ⟨found, hfound, -⟩ := Option.map_eq_some_iff.mp helement
      have hclose : '>' ∈ rest := by
        by_contra hno
        rw [throughClose_eq_none_iff.mpr hno] at hfound
        cases hfound
      obtain ⟨⟨letter, letters, rfl⟩, hletters⟩ := blockedNames_letters hname
      refine ⟨⟨_, hname, rest, hrest, hboundary⟩, ?_, (afterName_suffix hrest).subset hclose⟩
      cases text with
      | nil => cases hrest
      | cons c text =>
        rw [afterName] at hrest
        split at hrest
        · rename_i hc
          rw [opensName, isAlpha_of_toLower hc (hletters letter List.mem_cons_self), Bool.true_or]
        · cases hrest

/-- A name that is followed by no further word character is read as a whole. -/
theorem afterName_whole {name other tail after : Text}
    (hletters : ∀ letter ∈ name, letter.isAlpha = true) (hword : ∀ c ∈ other, isWord c = true)
    (hlower : toLowerCase other = other) (htail : tail.head?.any isWord = false)
    (h : afterName name (other ++ tail) = some after) (hafter : after.head?.any isWord = false) :
    name = other := by
  induction name generalizing other with
  | nil =>
    cases h
    cases other with
    | nil => rfl
    | cons c other =>
      rw [List.cons_append, List.head?_cons, Option.any_some, hword c List.mem_cons_self] at hafter
      cases hafter
  | cons letter name ih =>
    have hletter := hletters letter List.mem_cons_self
    cases other with
    | nil =>
      cases tail with
      | nil => cases h
      | cons c tail =>
        rw [List.nil_append, afterName] at h
        split at h
        · rename_i hc
          rw [List.head?_cons, Option.any_some, isWord, Char.isAlphanum,
            isAlpha_of_toLower hc hletter] at htail
          cases htail
        · cases h
    | cons c other =>
      rw [List.cons_append, afterName] at h
      split at h
      · rename_i hc
        rw [toLowerCase, List.map_cons, List.cons.injEq] at hlower
        rw [← hc, hlower.1, ih (fun d hd => hletters d (List.mem_cons_of_mem _ hd))
          (fun d hd => hword d (List.mem_cons_of_mem _ hd)) hlower.2 h]
      · cases h

/-- No blocked element begins with an allowed tag. -/
theorem blockedAt_cleanTag {name token : Text} (h : CleanTag name token) (rest : Text) :
    blockedAt (token ++ rest) = none := by
  by_contra hfound
  have hplain := plainName h.allowed
  have hapart : (blockedNames.all fun blocked => !allowedTags.contains blocked) = true := by decide
  cases h with
  | closing hname =>
    have htext : '<' :: '/' :: name ++ ['>'] ++ rest = '<' :: '/' :: (name ++ '>' :: rest) := by
      simp
    rw [htext] at hfound
    obtain ⟨⟨blocked, hblocked, after, hafter, -⟩, -⟩ := blockedAt_cases hfound
    obtain ⟨⟨letter, letters, rfl⟩, hletters⟩ := blockedNames_letters hblocked
    rw [afterName] at hafter
    split at hafter
    · rename_i hslash
      exact ne_of_isAlpha (isAlpha_of_toLower hslash (hletters letter List.mem_cons_self))
        (by decide) rfl
    · cases hafter
  | opening attributes slash hname hclean =>
    have htext : '<' :: (name ++ writtenAttributes attributes ++
        (if slash then " /".toList else []) ++ ['>']) ++ rest =
        '<' :: (name ++ (writtenAttributes attributes ++
          ((if slash then " /".toList else []) ++ '>' :: rest))) := by simp
    rw [htext] at hfound
    obtain ⟨⟨blocked, hblocked, after, hafter, hboundary⟩, -, -⟩ := blockedAt_cases hfound
    have hblank : isWord ' ' = false := by decide
    have hclose : isWord '>' = false := by decide
    have hhead : (writtenAttributes attributes ++ ((if slash then " /".toList else []) ++
        '>' :: rest)).head?.any isWord = false := by
      cases attributes with
      | nil => cases slash <;> simp [writtenAttributes, hblank, hclose]
      | cons entry attributes => exact hblank
    have hsame := afterName_whole (blockedNames_letters hblocked).2 hplain.word hplain.lower hhead
      hafter hboundary
    have hnot := List.all_eq_true.mp hapart blocked hblocked
    rw [hsame, Bool.not_eq_true'] at hnot
    exact absurd (List.contains_iff_mem.mpr hname) (Bool.eq_false_iff.mp hnot)

end Blocked

section Comments

variable {pieces : List (Piece Char)}

/-- No arrow ends in a text without a closing bracket, unless two dashes come last. -/
theorem afterArrow_append {body : Text} (hunclosed : '>' ∉ body) (hlast : body.getLast? ≠ some '-')
    (rest : Text) : afterArrow (body ++ '>' :: rest) = afterArrow rest := by
  induction body with
  | nil =>
    rw [List.nil_append, afterArrow, if_neg]
    simp
  | cons c body ih =>
    rw [List.mem_cons, not_or] at hunclosed
    have hno : ¬ "-->".toList.isPrefixOf (c :: body ++ '>' :: rest) = true := by
      intro harrow
      cases body with
      | nil => simp at harrow
      | cons d body =>
        cases body with
        | nil =>
          simp only [List.cons_append] at harrow
          have hd : d = '-' := by
            simp [List.isPrefixOf] at harrow
            exact harrow.2.symm
          rw [hd] at hlast
          exact hlast rfl
        | cons e body =>
          have he : e = '>' := by
            simp [List.isPrefixOf] at harrow
            exact harrow.2.2.symm
          rw [he] at hunclosed
          exact hunclosed.2 (by simp)
    rw [List.cons_append, afterArrow]
    rw [List.cons_append] at hno
    rw [if_neg hno]
    refine ih hunclosed.2 fun hend => hlast ?_
    rw [List.getLast?_cons, hend]
    rfl

theorem startsArrow_eq (h : CleanPieces pieces) (c : Char) :
    startsArrow (some c :: pieces.map Piece.item?) =
      "-->".toList.isPrefixOf (c :: render pieces) := by
  cases pieces with
  | nil => by_cases hc : c = '-' <;> simp [startsArrow, List.isPrefixOf, hc]
  | cons second pieces =>
    cases second with
    | found token =>
      obtain ⟨body, rfl, -⟩ := h.head
      by_cases hc : c = '-' <;> simp [startsArrow, Piece.item?, List.isPrefixOf, hc]
    | item d =>
      cases pieces with
      | nil => by_cases hc : c = '-' <;> by_cases hd : d = '-' <;>
          simp [startsArrow, Piece.item?, List.isPrefixOf, hc, hd]
      | cons third pieces =>
        cases third with
        | found token =>
          obtain ⟨body, rfl, -⟩ := h.tail.head
          by_cases hc : c = '-' <;> by_cases hd : d = '-' <;>
            simp [startsArrow, Piece.item?, List.isPrefixOf, hc, hd]
        | item e =>
          have harrow : "-->".toList.isPrefixOf (c :: d :: e :: render pieces) =
              (c == '-' && (d == '-' && e == '>')) := by
            simp [List.isPrefixOf, Bool.beq_comm]
          rw [render_item, render_item, harrow]
          by_cases hc : c = '-' <;> by_cases hd : d = '-' <;> by_cases he : e = '>' <;>
            simp [startsArrow, Piece.item?, hc, hd, he]

theorem arrowLater_eq (h : CleanPieces pieces) :
    arrowLater (pieces.map Piece.item?) = (afterArrow (render pieces)).isSome := by
  induction pieces with
  | nil => rfl
  | cons piece pieces ih =>
    cases piece with
    | item c =>
      rw [List.map_cons, arrowLater, render_item, afterArrow, ih h.tail]
      rw [show Piece.item? (.item c) = some c from rfl, startsArrow_eq h.tail]
      split
      · rename_i harrow
        rw [harrow]
        rfl
      · rename_i harrow
        rw [Bool.not_eq_true] at harrow
        rw [harrow, Bool.false_or]
    | found token =>
      obtain ⟨body, rfl, hbody⟩ := h.head
      have hbracket : ¬ "-->".toList.isPrefixOf ('<' :: (body ++ '>' :: render pieces)) = true := by
        simp
      rw [List.map_cons, arrowLater, ih h.tail, render_found]
      have htext : '<' :: (body ++ ['>']) ++ render pieces =
          '<' :: (body ++ '>' :: render pieces) := by simp
      rw [htext, afterArrow, if_neg hbracket, afterArrow_append hbody.unclosed hbody.last]
      rfl

/-- A character other than an opening bracket is one that is copied. -/
theorem exists_item (h : CleanPieces pieces) {c : Char} {rest : Text} (hc : c ≠ '<')
    (hrender : render pieces = c :: rest) :
    ∃ back, pieces = .item c :: back ∧ CleanPieces back ∧ render back = rest := by
  cases pieces with
  | nil => cases hrender
  | cons piece pieces =>
    cases piece with
    | item d =>
      rw [render_item] at hrender
      obtain ⟨rfl, hrest⟩ := List.cons.inj hrender
      exact ⟨pieces, rfl, h.tail, hrest⟩
    | found token =>
      obtain ⟨body, rfl, -⟩ := h.head
      rw [render_found, List.cons_append] at hrender
      exact absurd (List.cons.inj hrender).1.symm hc

theorem commentAt_cases {c : Char} {text : Text} (h : commentAt (c :: text) ≠ none) :
    c = '<' ∧ ∃ rest, text = '!' :: '-' :: '-' :: rest ∧ (afterArrow rest).isSome = true := by
  rw [commentAt.eq_def] at h
  split at h
  · rename_i rest heq
    simp only [List.cons.injEq] at heq
    obtain ⟨rfl, rfl⟩ := heq
    rw [matching, ne_eq, Option.map_eq_none_iff] at h
    exact ⟨rfl, rest, rfl, Option.isSome_iff_ne_none.mpr h⟩
  · exact absurd rfl h

/-- A comment that is found in a page was joined from text that was copied. -/
theorem commentAt_item (h : CleanPieces pieces) {c : Char}
    (hseparate : joinsComment (some c :: pieces.map Piece.item?) = false) :
    commentAt (c :: render pieces) = none := by
  by_contra hfound
  obtain ⟨rfl, rest, hrender, harrow⟩ := commentAt_cases hfound
  obtain ⟨back, rfl, hclean, hback⟩ := exists_item h (by decide) hrender
  obtain ⟨back, rfl, hclean, hback⟩ := exists_item hclean (by decide) hback
  obtain ⟨back, rfl, hclean, rfl⟩ := exists_item hclean (by decide) hback
  rw [← arrowLater_eq hclean] at harrow
  simp [joinsComment, opensComment, Piece.item?, harrow] at hseparate

theorem joinsTag_suffix {copied suffix : List (Option Char)} (h : suffix <:+ copied)
    (hseparate : joinsTag copied = false) : joinsTag suffix = false := by
  obtain ⟨front, rfl⟩ := h
  induction front with
  | nil => exact hseparate
  | cons first front ih =>
    rw [List.cons_append, joinsTag, Bool.or_eq_false_iff] at hseparate
    exact ih hseparate.2

theorem joinsComment_suffix {copied suffix : List (Option Char)} (h : suffix <:+ copied)
    (hseparate : joinsComment copied = false) : joinsComment suffix = false := by
  obtain ⟨front, rfl⟩ := h
  induction front with
  | nil => exact hseparate
  | cons first front ih =>
    rw [List.cons_append, joinsComment, Bool.or_eq_false_iff] at hseparate
    exact ih hseparate.2

/-- Nothing is cut out of a page whose copied text stays separate. -/
theorem withoutUnsafeBlocks_render (h : CleanPieces pieces)
    (htag : joinsTag (pieces.map Piece.item?) = false)
    (hcomment : joinsComment (pieces.map Piece.item?) = false) :
    withoutUnsafeBlocks (render pieces) = render pieces := by
  have hback : ∀ {c : Char} {back}, (.item c :: back) <:+ pieces →
      CleanPieces back ∧ (some c :: back.map Piece.item?) <:+ pieces.map Piece.item? := by
    intro c back hsuffix
    refine ⟨fun token hmem => h token (hsuffix.subset (List.mem_cons_of_mem _ hmem)), ?_⟩
    exact hsuffix.map Piece.item?
  have hblocked : removeAll blockedAt (render pieces) = render pieces := by
    refine removeAll_eq_self (not_found_of_pieces h rfl (fun c rest hc => ?_)
      (fun c back hsuffix => ?_) fun name token rest hclean => blockedAt_cleanTag hclean rest)
    · rw [blockedAt.eq_def]
      split
      · rename_i heq
        exact absurd (List.cons.inj heq).1 hc
      · rfl
    · obtain ⟨hclean, hshape⟩ := hback hsuffix
      by_contra hfound
      have hbracket : c = '<' := by
        by_contra hc
        rw [blockedAt.eq_def] at hfound
        split at hfound
        · rename_i heq
          exact hc (List.cons.inj heq).1
        · exact hfound rfl
      subst hbracket
      obtain ⟨-, hopens, hclose⟩ := blockedAt_cases hfound
      have hjoins := joinsTag_suffix hshape htag
      rw [joinsTag, opensTag_eq hclean, hopens, (mem_close_iff hclean).mp hclose] at hjoins
      simp at hjoins
  have hcomments : removeAll commentAt (render pieces) = render pieces := by
    refine removeAll_eq_self (not_found_of_pieces h rfl (fun c rest hc => ?_)
      (fun c back hsuffix => ?_) fun name token rest hclean => ?_)
    · by_contra hfound
      exact hc (commentAt_cases hfound).1
    · obtain ⟨hclean, hshape⟩ := hback hsuffix
      exact commentAt_item hclean (joinsComment_suffix hshape hcomment)
    · by_contra hfound
      obtain ⟨body, rfl, hbody⟩ := hclean.body
      obtain ⟨-, after, htext, -⟩ := commentAt_cases hfound
      obtain ⟨c, letters, rfl, hletter⟩ | ⟨c, letters, rfl, -⟩ := hbody.start
      · exact ne_of_isAlpha hletter (by decide) (List.cons.inj htext).1
      · exact absurd (List.cons.inj htext).1 (by decide)
  rw [withoutUnsafeBlocks, hblocked, hcomments]

end Comments

section Pages

variable {resolve : Text → Url → Option Url} {baseUrl : Url}

/-- What becomes of a piece that is kept. -/
def rewritten (resolve : Text → Url → Option Url) (baseUrl : Url) : Piece Char → Piece Char
  | .item c => .item c
  | .found token => .found (sanitizeTag resolve baseUrl token)

theorem item?_rewritten (pieces : List (Piece Char)) :
    (pieces.map (rewritten resolve baseUrl)).map Piece.item? = pieces.map Piece.item? := by
  rw [List.map_map]
  refine List.map_congr_left fun piece _ => ?_
  cases piece <;> rfl

theorem sanitizePieces_eq (html : Text) : sanitizePieces resolve baseUrl html =
    render ((remaining html).map (rewritten resolve baseUrl)) := by
  rw [sanitizePieces, remaining]
  induction scan tagAt html with
  | nil => rfl
  | cons piece pieces ih =>
    rw [List.flatMap_cons, ih]
    cases piece with
    | item c => rfl
    | found token =>
      dsimp only
      by_cases hallowed : tagName token ∈ allowedTags
      · have hkeep : keeps (.found token) = true := List.contains_iff_mem.mpr hallowed
        rw [List.filter_cons_of_pos hkeep, List.map_cons, rewritten, render_found]
      · have hdrop : ¬ keeps (.found token) = true := by simpa [keeps] using hallowed
        rw [List.filter_cons_of_neg hdrop, sanitizeTag_eq_nil hallowed, List.nil_append]

theorem tagName_mem {token : Text} (h : tagName token ∈ allowedTags)
    (hresolve : StartsWithProtocol resolve) :
    CleanTag (tagName token) (sanitizeTag resolve baseUrl token) := by
  have hsome : ([] : Text) ∉ allowedTags := by decide
  rw [tagName] at h ⊢
  cases hsplit : splitTag token with
  | none =>
    rw [hsplit] at h
    exact absurd h hsome
  | some parts =>
    obtain ⟨closing, name, rest⟩ := parts
    rw [hsplit] at h
    exact sanitizeTag_clean hresolve hsplit h

theorem cleanPieces_rewritten (hresolve : StartsWithProtocol resolve) {pieces : List (Piece Char)}
    (hkept : ∀ piece ∈ pieces, keeps piece = true) :
    CleanPieces (pieces.map (rewritten resolve baseUrl)) := by
  intro token hmem
  obtain ⟨piece, hpiece, heq⟩ := List.mem_map.mp hmem
  cases piece with
  | item c => cases heq
  | found source =>
    obtain rfl := Piece.found.inj heq
    exact ⟨_, tagName_mem (List.contains_iff_mem.mp (hkept _ hpiece)) hresolve⟩

/-- A page of clean tags whose copied text stays separate: what is found in it, and that a pass
over it writes the same tags again. -/
theorem pass_over_clean (hresolve : StartsWithProtocol resolve) {pieces : List (Piece Char)}
    (h : CleanPieces pieces) (htag : joinsTag (pieces.map Piece.item?) = false)
    (hcomment : joinsComment (pieces.map Piece.item?) = false) :
    tagsOf (render pieces) = pieces.filterMap Piece.token? ∧
      (∀ token ∈ tagsOf (render pieces), AllowedTag token) ∧
      (tagsOf (sanitizePieces resolve baseUrl (withoutUnsafeBlocks (render pieces)))).map tagName =
        (tagsOf (render pieces)).map tagName := by
  have hscan : ∀ {pieces}, CleanPieces pieces → joinsTag (pieces.map Piece.item?) = false →
      scan tagAt (render pieces) = pieces := fun hclean hseparate =>
    (scan_eq_iff tagAt_lawful).mpr ⟨rfl, parsed_of_separate hclean hseparate⟩
  have htags : tagsOf (render pieces) = pieces.filterMap Piece.token? := by
    rw [tagsOf, hscan h htag]
  have hkept : ∀ piece ∈ pieces, keeps piece = true := by
    intro piece hmem
    cases piece with
    | item c => rfl
    | found token =>
      obtain ⟨name, hclean⟩ := h token hmem
      exact List.contains_iff_mem.mpr (hclean.tagName ▸ hclean.allowed)
  have hremaining : remaining (render pieces) = pieces := by
    rw [remaining, hscan h htag]
    exact List.filter_eq_self.mpr hkept
  have hclean' : CleanPieces (pieces.map (rewritten resolve baseUrl)) :=
    cleanPieces_rewritten hresolve hkept
  have htag' : joinsTag ((pieces.map (rewritten resolve baseUrl)).map Piece.item?) = false := by
    rw [item?_rewritten]
    exact htag
  refine ⟨htags, fun token htoken => ?_, ?_⟩
  · rw [htags] at htoken
    obtain ⟨piece, hmem, htoken⟩ := List.mem_filterMap.mp htoken
    cases piece with
    | item c => cases htoken
    | found source =>
      obtain rfl := Option.some.inj htoken
      obtain ⟨name, hclean⟩ := h _ hmem
      exact hclean.allowedTag
  · rw [withoutUnsafeBlocks_render h htag hcomment, sanitizePieces_eq, hremaining, htags, tagsOf,
      hscan hclean' htag']
    clear hscan htags hremaining hclean' htag' htag hcomment
    induction pieces with
    | nil => rfl
    | cons piece pieces ih =>
      have hrest := ih h.tail fun other hother => hkept other (List.mem_cons_of_mem _ hother)
      cases piece with
      | item c => exact hrest
      | found token =>
        have hname : CleanTag (tagName token) (sanitizeTag resolve baseUrl token) :=
          tagName_mem (List.contains_iff_mem.mp (hkept _ List.mem_cons_self)) hresolve
        simp only [List.map_cons, rewritten, List.filterMap_cons, Piece.token?]
        rw [hrest, hname.tagName]

/-- Where dropping tags joins no copied text into a tag or a comment, every tag of the page is an
allowed one, and another pass leaves the names of its tags. -/
theorem sanitized_tags_allowed (parse : Text → Option Url) (resolve : Text → Url → Option Url)
    (hresolve : StartsWithProtocol resolve) (rawHtml sourceUrl : Text) (maxBytes : Nat)
    (output : Text)
    (houtput : preprocessCrawlerHtml parse resolve rawHtml sourceUrl maxBytes = some output)
    (hseparate : staysSeparate rawHtml = true) :
    (∀ token ∈ tagsOf output, AllowedTag token) ∧
      ∀ limit, (encodeUtf8 output).length ≤ limit →
        ∃ again, preprocessCrawlerHtml parse resolve output sourceUrl limit = some again ∧
          (tagsOf again).map tagName = (tagsOf output).map tagName := by
  rw [preprocessCrawlerHtml] at houtput
  split at houtput
  · cases houtput
  · obtain ⟨baseUrl, hbase, rfl⟩ := Option.map_eq_some_iff.mp houtput
    rw [staysSeparate, Bool.and_eq_true, Bool.not_eq_true', Bool.not_eq_true'] at hseparate
    obtain ⟨htag, hcomment⟩ := hseparate
    have hclean : CleanPieces
        ((remaining (withoutUnsafeBlocks rawHtml)).map (rewritten resolve baseUrl)) :=
      cleanPieces_rewritten hresolve fun piece hmem => (List.mem_filter.mp hmem).2
    rw [← @item?_rewritten resolve baseUrl] at htag hcomment
    obtain ⟨-, hallowed, hnames⟩ := @pass_over_clean resolve baseUrl hresolve _ hclean htag hcomment
    rw [← sanitizePieces_eq] at hallowed hnames
    refine ⟨hallowed, fun limit hlimit => ⟨_, ?_, hnames⟩⟩
    rw [preprocessCrawlerHtml, if_neg (by omega), hbase]
    rfl

/-- A page of the news site, and its root for every reference. -/
def newsSite : Text → Option Url := fun value =>
  if startsWith value "https://".toList then
    some ⟨"https:".toList, [], [], "news.example".toList, value⟩
  else none

def newsReference : Text → Url → Option Url := fun value base =>
  if startsWith value ['/'] then
    some { base with protocol := "https:".toList, href := "https://news.example".toList ++ value }
  else newsSite value

theorem newsReference_startsWithProtocol : StartsWithProtocol newsReference := by
  intro text baseUrl url h
  rw [newsReference] at h
  split at h
  · obtain rfl := Option.some.inj h
    rfl
  · rw [newsSite] at h
    split at h
    · rename_i hprotocol
      obtain rfl := Option.some.inj h
      rw [startsWith, List.isPrefixOf_iff_prefix] at hprotocol ⊢
      have hlonger : "https:".toList <+: "https://".toList := by decide
      exact hlonger.trans hprotocol
    · cases h

theorem sanitized_tags_allowed_link :
    (∀ token ∈ tagsOf "<a href=\"https://news.example/btc\">1 < 2</a>".toList,
        AllowedTag token) ∧
      ∀ limit, (encodeUtf8 "<a href=\"https://news.example/btc\">1 < 2</a>".toList).length ≤ limit →
        ∃ again, preprocessCrawlerHtml newsSite newsReference
            "<a href=\"https://news.example/btc\">1 < 2</a>".toList
            "https://news.example/".toList limit = some again ∧
          (tagsOf again).map tagName =
            (tagsOf "<a href=\"https://news.example/btc\">1 < 2</a>".toList).map tagName :=
  sanitized_tags_allowed newsSite newsReference newsReference_startsWithProtocol
    "<!-- ad --><A onclick=x href=/btc>1 < <script>2</script>2</A>".toList
    "https://news.example/".toList 100 _ (by decide +kernel) (by decide +kernel)

/-- Dropping one tag joins what stands around it into another. -/
theorem script_joined_by_sanitizer :
    ∃ output, preprocessCrawlerHtml newsSite newsReference "<<foo>script>".toList
        "https://news.example/".toList 100 = some output ∧
      ∃ token ∈ tagsOf output, ¬ AllowedTag token := by
  refine ⟨"<script>".toList, by decide +kernel, "<script>".toList, by decide +kernel, ?_⟩
  intro hallowed
  have hname : tagName "<script>".toList ∉ allowedTags := by decide +kernel
  exact hname hallowed.name

end Pages

end Cryptox.Outbound.Sanitizer
