import Mathlib.Data.List.Forall2

/-!
# Pools of sources

A source gives its items one by one, or counts those that are left. A pool holds sources that are
used in any order, and copies of them join it. Two kinds of sources that agree on what each use
answers agree on what any sequence of uses of a pool answers.
-/
namespace Disasm8086

/-- How a state of type `σ` gives items of type `α`. -/
structure Source (σ α : Type) where
  /-- The next item, if there is one, and the state behind it. -/
  next : σ → Option α × σ
  /-- The number of items that are left, and the state behind the last of them. -/
  count : σ → Nat × σ

/-- The source whose state is the number of calls made to it: it gives the items of a list, and
counting them is as many calls as the list has items. -/
def Source.ofList {α : Type} (items : List α) : Source Nat α where
  next calls := (items[calls]?, calls + 1)
  count calls := (items.length - calls, calls + items.length)

inductive Use.Kind where
  | next
  | count
  /-- A copy becomes the last of the pool. -/
  | clone
  deriving DecidableEq, Repr

/-- A use of one source of a pool, which is given by its number. -/
structure Use where
  kind : Use.Kind
  number : Nat
  deriving DecidableEq, Repr

inductive Answer (α : Type) where
  | item (found : Option α)
  | count (left : Nat)
  | clone (number : Nat)
  deriving DecidableEq, Repr

def Answer.map {α β : Type} (f : α → β) : Answer α → Answer β
  | .item found => .item (found.map f)
  | .count left => .count left
  | .clone number => .clone number

/-- Related lists have related members at each place. -/
theorem rel_getElem? {σ τ : Type} {R : σ → τ → Prop} {pool : List σ} {pool' : List τ}
    (h : List.Forall₂ R pool pool') (k : Nat) : Option.Rel R pool[k]? pool'[k]? := by
  induction h generalizing k with
  | nil => exact .none
  | cons hstate _ ih =>
    cases k with
    | zero => exact .some hstate
    | succ k => exact ih k

theorem forall₂_set {σ τ : Type} {R : σ → τ → Prop} {pool : List σ} {pool' : List τ}
    (h : List.Forall₂ R pool pool') {state : σ} {state' : τ} (hstate : R state state') (k : Nat) :
    List.Forall₂ R (pool.set k state) (pool'.set k state') := by
  induction h generalizing k with
  | nil => exact .nil
  | cons hfirst hrest ih =>
    cases k with
    | zero => exact .cons hstate hrest
    | succ k => exact .cons hfirst (ih k)

namespace Source

variable {σ τ α β : Type}

/-- What a use of a source of the pool answers, and the pool behind it. -/
def apply (source : Source σ α) (pool : List σ) (number : Nat) (state : σ) :
    Use.Kind → Answer α × List σ
  | .next => (.item (source.next state).1, pool.set number (source.next state).2)
  | .count => (.count (source.count state).1, pool.set number (source.count state).2)
  | .clone => (.clone pool.length, pool ++ [state])

/-- A use of a source that the pool does not have answers nothing and changes nothing. -/
def use (source : Source σ α) (pool : List σ) (use : Use) : Option (Answer α) × List σ :=
  match pool[use.number]? with
  | some state =>
    let (answer, later) := source.apply pool use.number state use.kind
    (some answer, later)
  | none => (none, pool)

/-- The answers to uses one after the other, and the pool behind the last of them. -/
def run (source : Source σ α) (pool : List σ) : List Use → List (Option (Answer α)) × List σ
  | [] => ([], pool)
  | use :: uses =>
    let (answer, later) := source.use pool use
    let (answers, last) := source.run later uses
    (answer :: answers, last)

/-- Uses answer alike and leave related states, where the items of one source are shown as those of
the other by `f`. -/
structure Agrees (source : Source σ α) (source' : Source τ β) (f : α → β) (R : σ → τ → Prop) :
    Prop where
  next {state : σ} {state' : τ} (h : R state state') :
    (source.next state).1.map f = (source'.next state').1 ∧
      R (source.next state).2 (source'.next state').2
  count {state : σ} {state' : τ} (h : R state state') :
    (source.count state).1 = (source'.count state').1 ∧
      R (source.count state).2 (source'.count state').2

namespace Agrees

variable {source : Source σ α} {source' : Source τ β} {f : α → β} {R : σ → τ → Prop}
  {pool : List σ} {pool' : List τ}

theorem apply (h : Agrees source source' f R) (hpool : List.Forall₂ R pool pool') {state : σ}
    {state' : τ} (hstate : R state state') (number : Nat) (kind : Use.Kind) :
    (source.apply pool number state kind).1.map f =
        (source'.apply pool' number state' kind).1 ∧
      List.Forall₂ R (source.apply pool number state kind).2
        (source'.apply pool' number state' kind).2 := by
  cases kind with
  | next =>
    obtain ⟨hfound, hlater⟩ := h.next hstate
    exact ⟨congrArg Answer.item hfound, forall₂_set hpool hlater number⟩
  | count =>
    obtain ⟨hleft, hlater⟩ := h.count hstate
    exact ⟨congrArg Answer.count hleft, forall₂_set hpool hlater number⟩
  | clone =>
    exact ⟨congrArg Answer.clone hpool.length_eq,
      List.rel_append hpool (.cons hstate .nil)⟩

/-- Pools of sources that agree answer a use alike. -/
theorem use (h : Agrees source source' f R) (hpool : List.Forall₂ R pool pool') (use : Use) :
    (source.use pool use).1.map (Answer.map f) = (source'.use pool' use).1 ∧
      List.Forall₂ R (source.use pool use).2 (source'.use pool' use).2 := by
  have hmember := rel_getElem? hpool use.number
  unfold Source.use
  generalize pool[use.number]? = member at hmember
  generalize pool'[use.number]? = member' at hmember
  cases hmember with
  | none => exact ⟨rfl, hpool⟩
  | some hstate =>
    obtain ⟨hanswer, hlater⟩ := h.apply hpool hstate use.number use.kind
    exact ⟨congrArg some hanswer, hlater⟩

/-- Pools of sources that agree answer any uses alike. -/
theorem run (h : Agrees source source' f R) (hpool : List.Forall₂ R pool pool')
    (uses : List Use) :
    (source.run pool uses).1.map (Option.map (Answer.map f)) = (source'.run pool' uses).1 ∧
      List.Forall₂ R (source.run pool uses).2 (source'.run pool' uses).2 := by
  induction uses generalizing pool pool' with
  | nil => exact ⟨rfl, hpool⟩
  | cons use uses ih =>
    obtain ⟨hanswer, hlater⟩ := h.use hpool use
    obtain ⟨hanswers, hlast⟩ := ih hlater
    exact ⟨congrArg₂ List.cons hanswer hanswers, hlast⟩

end Agrees

variable {source : Source σ α} {pool : List σ} {state : σ} {k : Nat}

theorem run_append (uses more : List Use) : (source.run pool (uses ++ more)).2 =
    (source.run (source.run pool uses).2 more).2 := by
  induction uses generalizing pool with
  | nil => rfl
  | cons use uses ih => exact ih

theorem getElem?_set_of_fixed {pool : List σ} {state member : σ} {k number : Nat} {f : σ → σ}
    (hfixed : f state = state) (hstate : pool[k]? = some state)
    (hmember : pool[number]? = some member) : (pool.set number (f member))[k]? = some state := by
  by_cases hk : number = k
  · subst hk
    obtain ⟨hlt, -⟩ := List.getElem?_eq_some_iff.mp hstate
    cases hmember.symm.trans hstate
    rw [List.getElem?_set_self hlt, hfixed]
  · rw [List.getElem?_set_ne hk, hstate]

/-- A state that its uses do not change stays in its place, whatever a pool is used for. -/
theorem getElem?_use (hnext : (source.next state).2 = state)
    (hcount : (source.count state).2 = state) (hstate : pool[k]? = some state) (use : Use) :
    (source.use pool use).2[k]? = some state := by
  unfold Source.use
  cases hmember : pool[use.number]? with
  | none => exact hstate
  | some member =>
    cases hkind : use.kind with
    | next => exact getElem?_set_of_fixed (f := fun s => (source.next s).2) hnext hstate hmember
    | count => exact getElem?_set_of_fixed (f := fun s => (source.count s).2) hcount hstate hmember
    | clone =>
      obtain ⟨hlt, -⟩ := List.getElem?_eq_some_iff.mp hstate
      change (pool ++ [member])[k]? = some state
      rw [List.getElem?_append_left hlt, hstate]

theorem getElem?_run (hnext : (source.next state).2 = state)
    (hcount : (source.count state).2 = state) (hstate : pool[k]? = some state)
    (uses : List Use) : (source.run pool uses).2[k]? = some state := by
  induction uses generalizing pool with
  | nil => exact hstate
  | cons use uses ih => exact ih (getElem?_use hnext hcount hstate use)

end Source

end Disasm8086
