import Cryptox.Library.GuardedSystem
import Mathlib.Logic.Function.Basic

/-!
# Letters on their way through an outbox

A sender writes its letters down; couriers copy a letter that waits and hand the copy over at any
later time, or never. The sender marks a letter as sent once it is known to have arrived, lets it
wait again, or withdraws it. In every run only written letters arrive, a letter marked as sent has
arrived, and a withdrawn letter that nobody carries never arrives again.
-/
namespace Cryptox.Library

inductive Standing where
  | waiting | sent | withdrawn
deriving DecidableEq, Repr

structure Letter (μ : Type) where
  content : μ
  standing : Standing

/-- What is written down, who carries what, what the receiver keeps, and all that ever arrived, the
latest first. -/
@[ext] structure Outbox (κ ι μ : Type) where
  letters : κ → Option (Letter μ)
  carried : ι → Option (κ × μ)
  kept : κ → Option μ
  arrived : List (κ × μ)

inductive OutboxEvent (κ ι μ : Type) where
  | post (key : κ) (content : μ)
  | collect (courier : ι) (key : κ)
  | deliver (courier : ι)
  | leave (courier : ι)
  | confirm (key : κ)
  | postpone (key : κ)
  | withdraw (key : κ)
  | discard (key : κ)

/-- A letter is marked anew, unless it is withdrawn. -/
def Letter.mark {μ : Type} (standing : Standing) (letter : Letter μ) : Letter μ :=
  if letter.standing = .withdrawn then letter else { letter with standing }

def Letter.withdraw {μ : Type} (letter : Letter μ) : Letter μ :=
  { letter with standing := .withdrawn }

theorem Letter.content_mark {μ : Type} (standing : Standing) (letter : Letter μ) :
    (letter.mark standing).content = letter.content := by
  rw [mark]
  split <;> rfl

namespace Outbox

variable {κ ι μ : Type}

def empty : Outbox κ ι μ := ⟨fun _ => none, fun _ => none, fun _ => none, []⟩

/-- What is written down under a key. -/
def content? (box : Outbox κ ι μ) (key : κ) : Option μ := (box.letters key).map Letter.content

/-- Everything carried, arrived or kept is as it was written, and a letter marked as sent has
arrived. -/
structure Sound (box : Outbox κ ι μ) : Prop where
  carried : ∀ courier key content, box.carried courier = some (key, content) →
    box.content? key = some content
  arrived : ∀ key content, (key, content) ∈ box.arrived → box.content? key = some content
  kept : ∀ key content, box.kept key = some content → (key, content) ∈ box.arrived
  sent : ∀ key letter, box.letters key = some letter → letter.standing = .sent →
    (key, letter.content) ∈ box.arrived

theorem sound_empty : (empty : Outbox κ ι μ).Sound where
  carried _ _ _ h := by cases h
  arrived _ _ h := by cases h
  kept _ _ h := by cases h
  sent _ _ h := by cases h

variable [DecidableEq κ]

def arrivalsOf (box : Outbox κ ι μ) (key : κ) : List (κ × μ) :=
  box.arrived.filter fun arrival => arrival.1 = key

def write (box : Outbox κ ι μ) (key : κ) (letter : Letter μ) : Outbox κ ι μ :=
  { box with letters := Function.update box.letters key (some letter) }

def rewrite (box : Outbox κ ι μ) (key : κ) (f : Letter μ → Letter μ) : Outbox κ ι μ :=
  { box with letters := Function.update box.letters key ((box.letters key).map f) }

/-- A letter arrives; one that is kept already stays as it is. -/
def arrive (box : Outbox κ ι μ) (key : κ) (content : μ) : Outbox κ ι μ :=
  { box with
    kept := Function.update box.kept key (some ((box.kept key).getD content))
    arrived := (key, content) :: box.arrived }

def forget (box : Outbox κ ι μ) (key : κ) : Outbox κ ι μ :=
  { box with kept := Function.update box.kept key none }

def enabled (box : Outbox κ ι μ) : OutboxEvent κ ι μ → Prop
  | .post key _ => box.letters key = none
  | .collect courier key => box.carried courier = none ∧
      ∃ content, box.letters key = some ⟨content, .waiting⟩
  | .deliver courier => (box.carried courier).isSome
  | .confirm key => ∃ content, (key, content) ∈ box.arrived
  | .leave _ | .postpone _ | .withdraw _ | .discard _ => True

variable [DecidableEq ι]

def carry (box : Outbox κ ι μ) (courier : ι) (load : Option (κ × μ)) : Outbox κ ι μ :=
  { box with carried := Function.update box.carried courier load }

def next (box : Outbox κ ι μ) : OutboxEvent κ ι μ → Outbox κ ι μ
  | .post key content => box.write key ⟨content, .waiting⟩
  | .collect courier key =>
    box.carry courier ((box.letters key).map fun letter => (key, letter.content))
  | .deliver courier =>
    match box.carried courier with
    | none => box
    | some (key, content) => (box.arrive key content).carry courier none
  | .leave courier => box.carry courier none
  | .confirm key => box.rewrite key (Letter.mark .sent)
  | .postpone key => box.rewrite key (Letter.mark .waiting)
  | .withdraw key => box.rewrite key Letter.withdraw
  | .discard key => box.forget key

def system (κ ι μ : Type) [DecidableEq κ] [DecidableEq ι] :
    GuardedSystem (Outbox κ ι μ) (OutboxEvent κ ι μ) :=
  ⟨enabled, next⟩

section Steps

variable {box : Outbox κ ι μ} {key : κ} {content : μ}

section Rewriting

omit [DecidableEq ι]

@[simp] theorem letters_rewrite_self (f : Letter μ → Letter μ) :
    (box.rewrite key f).letters key = (box.letters key).map f := Function.update_self ..

@[simp] theorem letters_rewrite_of_ne {other : κ} (h : other ≠ key) (f : Letter μ → Letter μ) :
    (box.rewrite key f).letters other = box.letters other := Function.update_of_ne h ..

@[simp] theorem letters_write_self (letter : Letter μ) :
    (box.write key letter).letters key = some letter := Function.update_self ..

@[simp] theorem letters_write_of_ne {other : κ} (h : other ≠ key) (letter : Letter μ) :
    (box.write key letter).letters other = box.letters other := Function.update_of_ne h ..

@[simp] theorem kept_forget_self : (box.forget key).kept key = none := Function.update_self ..

@[simp] theorem kept_forget_of_ne {other : κ} (h : other ≠ key) :
    (box.forget key).kept other = box.kept other := Function.update_of_ne h ..

@[simp] theorem kept_arrive_self : (box.arrive key content).kept key =
    some ((box.kept key).getD content) := Function.update_self ..

@[simp] theorem kept_arrive_of_ne {other : κ} (h : other ≠ key) :
    (box.arrive key content).kept other = box.kept other := Function.update_of_ne h ..

theorem content?_rewrite {f : Letter μ → Letter μ}
    (hf : ∀ letter, (f letter).content = letter.content) (key other : κ) :
    (box.rewrite key f).content? other = box.content? other := by
  by_cases h : other = key
  · subst h
    simp [content?, Function.comp_def, hf]
  · simp [content?, h]

/-- A letter that a rewriting leaves as sent was so before, or has been rewritten to it. -/
theorem sent_rewrite {f : Letter μ → Letter μ} {other : κ} {letter : Letter μ}
    (hletter : (box.rewrite key f).letters other = some letter) :
    box.letters other = some letter ∨
      ∃ before, box.letters other = some before ∧ other = key ∧ f before = letter := by
  by_cases h : other = key
  · subst h
    rw [letters_rewrite_self, Option.map_eq_some_iff] at hletter
    obtain ⟨before, hbefore, hf⟩ := hletter
    exact .inr ⟨before, hbefore, rfl, hf⟩
  · rw [letters_rewrite_of_ne h] at hletter
    exact .inl hletter

/-- Letters are rewritten with their contents kept, and marked as sent only after they arrived. -/
theorem sound_rewrite (h : box.Sound) {f : Letter μ → Letter μ}
    (hf : ∀ letter, (f letter).content = letter.content)
    (hsent : ∀ letter, box.letters key = some letter → (f letter).standing = .sent →
      letter.standing = .sent ∨ ∃ content, (key, content) ∈ box.arrived) :
    (box.rewrite key f).Sound where
  carried courier other content hcarried :=
    (content?_rewrite hf key other).trans (h.carried courier other content hcarried)
  arrived other content harrived :=
    (content?_rewrite hf key other).trans (h.arrived other content harrived)
  kept := h.kept
  sent other letter hletter hstanding := by
    rcases sent_rewrite hletter with hsame | ⟨before, hbefore, rfl, rfl⟩
    · exact h.sent other letter hsame hstanding
    · rw [hf]
      rcases hsent before hbefore hstanding with hstill | ⟨content, harrived⟩
      · exact h.sent other before hbefore hstill
      · -- an arrival under the key is of the letter written there
        have hcontent := h.arrived other content harrived
        rw [content?, hbefore, Option.map_some] at hcontent
        cases hcontent
        exact harrived

theorem sound_arrive (h : box.Sound) (hcontent : box.content? key = some content) :
    (box.arrive key content).Sound where
  carried := h.carried
  arrived other found harrived := by
    rcases List.mem_cons.mp harrived with heq | hmem
    · cases heq
      exact hcontent
    · exact h.arrived other found hmem
  kept other found hkept := by
    by_cases heq : other = key
    · subst heq
      rw [kept_arrive_self, Option.some_inj] at hkept
      cases hbefore : box.kept other with
      | none =>
        rw [hbefore, Option.getD_none] at hkept
        rw [← hkept]
        exact List.mem_cons_self
      | some before =>
        rw [hbefore, Option.getD_some] at hkept
        rw [← hkept]
        exact List.mem_cons_of_mem _ (h.kept other before hbefore)
    · rw [kept_arrive_of_ne heq] at hkept
      exact List.mem_cons_of_mem _ (h.kept other found hkept)
  sent other letter hletter hstanding := List.mem_cons_of_mem _ (h.sent other letter hletter hstanding)

end Rewriting

/-- What is written down stays. -/
theorem content?_next {event : OutboxEvent κ ι μ} (henabled : box.enabled event)
    (h : box.content? key = some content) : (box.next event).content? key = some content := by
  cases event with
  | post other new =>
    have hnew : box.letters other = none := henabled
    have hne : key ≠ other := by
      rintro rfl
      rw [content?, hnew] at h
      cases h
    exact (congrArg _ (letters_write_of_ne hne _)).trans h
  | collect | leave | discard => exact h
  | deliver courier =>
    rw [next]
    split <;> exact h
  | confirm other => exact (content?_rewrite (Letter.content_mark .sent) other key).trans h
  | postpone other => exact (content?_rewrite (Letter.content_mark .waiting) other key).trans h
  | withdraw other => exact (content?_rewrite
      (fun _ => rfl : ∀ letter : Letter μ, letter.withdraw.content = letter.content)
      other key).trans h

omit [DecidableEq κ] in
@[simp] theorem carried_carry_self (courier : ι) (load : Option (κ × μ)) :
    (box.carry courier load).carried courier = load := Function.update_self ..

omit [DecidableEq κ] in
@[simp] theorem carried_carry_of_ne {courier other : ι} (h : other ≠ courier)
    (load : Option (κ × μ)) :
    (box.carry courier load).carried other = box.carried other := Function.update_of_ne h ..

omit [DecidableEq κ] in
theorem carry_eq_self {courier : ι} {load : Option (κ × μ)} (h : box.carried courier = load) :
    box.carry courier load = box := by
  rw [carry, ← h, Function.update_eq_self]

omit [DecidableEq κ] in
theorem sound_carry (h : box.Sound) (courier : ι) {load : Option (κ × μ)}
    (hload : ∀ key content, load = some (key, content) → box.content? key = some content) :
    (box.carry courier load).Sound where
  carried other key content hcarried := by
    by_cases heq : other = courier
    · subst heq
      rw [carried_carry_self] at hcarried
      exact hload key content hcarried
    · rw [carried_carry_of_ne heq] at hcarried
      exact h.carried other key content hcarried
  arrived := h.arrived
  kept := h.kept
  sent := h.sent

theorem sound_next (box : Outbox κ ι μ) (event : OutboxEvent κ ι μ) (h : box.Sound)
    (henabled : (system κ ι μ).enabled box event) : ((system κ ι μ).next box event).Sound := by
  cases event with
  | post key content =>
    have hsound : ∀ other found, box.content? other = some found →
        (box.next (.post key content)).content? other = some found :=
      fun other found => content?_next henabled
    refine ⟨fun courier other found hcarried =>
        hsound other found (h.carried courier other found hcarried),
      fun other found harrived => hsound other found (h.arrived other found harrived), h.kept, ?_⟩
    intro other letter hletter hstanding
    by_cases heq : other = key
    · subst heq
      cases (letters_write_self _).symm.trans hletter
      cases hstanding
    · exact h.sent other letter ((letters_write_of_ne heq _).symm.trans hletter) hstanding
  | collect courier key =>
    refine sound_carry h courier fun found content hload => ?_
    rw [Option.map_eq_some_iff] at hload
    obtain ⟨letter, hletter, heq⟩ := hload
    cases heq
    rw [content?, hletter, Option.map_some]
  | deliver courier =>
    show (box.next (.deliver courier)).Sound
    rw [next]
    split
    next => exact h
    next key content hcarried =>
      exact sound_carry (sound_arrive h (h.carried courier key content hcarried)) courier nofun
  | leave courier => exact sound_carry h courier nofun
  | confirm key =>
    exact sound_rewrite h (Letter.content_mark .sent) fun _ _ _ => .inr henabled
  | postpone key =>
    refine sound_rewrite h (Letter.content_mark .waiting) fun letter _ hstanding => ?_
    rw [Letter.mark] at hstanding
    split at hstanding
    · exact .inl hstanding
    · cases hstanding
  | withdraw key => exact sound_rewrite h (fun _ => rfl) fun _ _ hstanding => by cases hstanding
  | discard key =>
    refine ⟨h.carried, h.arrived, fun other content hkept => ?_, h.sent⟩
    by_cases heq : other = key
    · subst heq
      cases kept_forget_self.symm.trans hkept
    · exact h.kept other content ((kept_forget_of_ne heq).symm.trans hkept)

/-- A withdrawn letter that nobody carries. -/
structure Quiet (key : κ) (content : μ) (box : Outbox κ ι μ) : Prop where
  withdrawn : box.letters key = some ⟨content, .withdrawn⟩
  idle : ∀ courier load, box.carried courier = some load → load.1 ≠ key

theorem withdrawn_next {event : OutboxEvent κ ι μ} (henabled : box.enabled event)
    (h : box.letters key = some ⟨content, .withdrawn⟩) :
    (box.next event).letters key = some ⟨content, .withdrawn⟩ := by
  have hrewrite : ∀ other f, f (⟨content, .withdrawn⟩ : Letter μ) = ⟨content, .withdrawn⟩ →
      (box.rewrite other f).letters key = some ⟨content, .withdrawn⟩ := by
    intro other f hf
    by_cases heq : key = other
    · subst heq
      rw [letters_rewrite_self, h, Option.map_some, hf]
    · rw [letters_rewrite_of_ne heq, h]
  cases event with
  | post other new =>
    have hnew : box.letters other = none := henabled
    have hne : key ≠ other := by
      rintro rfl
      rw [hnew] at h
      cases h
    exact (letters_write_of_ne hne _).trans h
  | collect | leave | discard => exact h
  | deliver courier =>
    rw [next]
    split <;> exact h
  | confirm other => exact hrewrite other _ rfl
  | postpone other => exact hrewrite other _ rfl
  | withdraw other => exact hrewrite other _ rfl

/-- Nothing arrives of a quiet letter. -/
theorem quiet_next {event : OutboxEvent κ ι μ} (henabled : box.enabled event)
    (h : box.Quiet key content) : (box.next event).Quiet key content ∧
      (box.next event).arrivalsOf key = box.arrivalsOf key ∧
      (box.kept key = none → (box.next event).kept key = none) := by
  have hwithdrawn := withdrawn_next henabled h.withdrawn
  have hidle : ∀ courier load, (∀ found, load = some found → found.1 ≠ key) →
      ∀ other found, (box.carry courier load).carried other = some found → found.1 ≠ key := by
    intro courier load hload other found hfound
    by_cases heq : other = courier
    · subst heq
      rw [carried_carry_self] at hfound
      exact hload found hfound
    · rw [carried_carry_of_ne heq] at hfound
      exact h.idle other found hfound
  cases event with
  | post | confirm | postpone | withdraw => exact ⟨⟨hwithdrawn, h.idle⟩, rfl, id⟩
  | collect courier other =>
    refine ⟨⟨hwithdrawn, hidle courier _ fun found hfound => ?_⟩, rfl, id⟩
    obtain ⟨-, waiting, hwaiting⟩ := henabled
    rw [hwaiting, Option.map_some, Option.some_inj] at hfound
    subst hfound
    rintro rfl
    cases h.withdrawn.symm.trans hwaiting
  | deliver courier =>
    rw [next] at hwithdrawn ⊢
    cases hcarried : box.carried courier with
    | none => exact ⟨h, rfl, id⟩
    | some load =>
      obtain ⟨other, new⟩ := load
      rw [hcarried] at hwithdrawn
      have hne : other ≠ key := h.idle courier _ hcarried
      refine ⟨⟨hwithdrawn, hidle courier none nofun⟩, ?_, fun hkept => ?_⟩
      · exact List.filter_cons_of_neg (by simpa using hne)
      · exact (kept_arrive_of_ne hne.symm).trans hkept
  | leave courier => exact ⟨⟨hwithdrawn, hidle courier none nofun⟩, rfl, id⟩
  | discard other =>
    refine ⟨⟨hwithdrawn, h.idle⟩, rfl, fun hkept => ?_⟩
    by_cases heq : key = other
    · subst heq
      exact kept_forget_self
    · exact (kept_forget_of_ne heq).trans hkept

end Steps

section Runs

variable {box : Outbox κ ι μ} {events : List (OutboxEvent κ ι μ)} {key : κ} {content : μ}
  (h : (system κ ι μ).Legal (fun _ _ => True) box events)

include h

theorem sound_run (hbox : box.Sound) : ((system κ ι μ).run box events).Sound :=
  h.invariant Sound (fun s event hs henabled _ => sound_next s event hs henabled) hbox

theorem content?_run (hbox : box.content? key = some content) :
    ((system κ ι μ).run box events).content? key = some content :=
  h.invariant (fun s => s.content? key = some content)
    (fun _ _ hs henabled _ => content?_next henabled hs) hbox

theorem withdrawn_run (hbox : box.letters key = some ⟨content, .withdrawn⟩) :
    ((system κ ι μ).run box events).letters key = some ⟨content, .withdrawn⟩ :=
  h.invariant (fun s => s.letters key = some ⟨content, .withdrawn⟩)
    (fun _ _ hs henabled _ => withdrawn_next henabled hs) hbox

/-- What arrived of a quiet letter is all that ever arrives, and nothing of it is kept again. -/
theorem quiet_run (hbox : box.Quiet key content) :
    ((system κ ι μ).run box events).arrivalsOf key = box.arrivalsOf key ∧
      (box.kept key = none → ((system κ ι μ).run box events).kept key = none) := by
  refine h.stable (fun s => s.Quiet key content)
    (fun s => s.arrivalsOf key = box.arrivalsOf key ∧ (box.kept key = none → s.kept key = none))
    (fun _ _ hs henabled _ => (quiet_next henabled hs).1) ?_ hbox ⟨rfl, id⟩
  intro s event hs hrel henabled _
  obtain ⟨-, harrivals, hkept⟩ := quiet_next henabled hs
  exact ⟨harrivals.trans hrel.1, fun hnone => hkept (hrel.2 hnone)⟩

end Runs

end Outbox

end Cryptox.Library
