import Disasm8086.Proofs.Takes

/-!
# Reads as plans

A plan writes a read out: the numbers that it demands one after the other, and how it goes on with
each. Every stepwise read has one. So all places are known at which a read looks into the buffer,
also those in the middle of an instruction: they lie between the reader in front of the read
and the end of the buffer, and the last of them is where the bytes run out, if they do.
-/
namespace Disasm8086.Read

variable {α : Type}

inductive Plan (α : Type) where
  | pure (a : α)
  | throw (fault : Fault) (h : ∀ offset, fault ≠ .endOfInput offset)
  | number (width : Width) (next : UInt16 → Plan α)

/-- A byte or word that is demanded of a reader. -/
structure Demand where
  width : Width
  reader : Reader
  deriving DecidableEq, Repr

namespace Plan

def read : Plan α → Read α
  | .pure a => Pure.pure a
  | .throw fault _ => MonadExcept.throw fault
  | .number width next => Read.number width >>= fun value => (next value).read

/-- The demands that a plan makes from a reader on, in order. Behind one that is not met there is
no further one. -/
def demands : Plan α → Reader → List Demand
  | .pure _, _ => []
  | .throw _ _, _ => []
  | .number width next, reader => ⟨width, reader⟩ ::
    match Read.number width reader with
    | .ok value later => (next value).demands later
    | .error _ _ => []

theorem demands_number_of_ok {width : Width} {reader later : Reader} {value : UInt16}
    (h : Read.number width reader = .ok value later) (next : UInt16 → Plan α) :
    (number width next).demands reader = ⟨width, reader⟩ :: (next value).demands later := by
  rw [demands, h]

theorem demands_number_of_error {width : Width} {reader later : Reader} {fault : Fault}
    (h : Read.number width reader = .error fault later) (next : UInt16 → Plan α) :
    (number width next).demands reader = [⟨width, reader⟩] := by
  rw [demands, h]

/-- A demand is made where earlier ones have left the reader. -/
theorem passes_of_mem_demands {plan : Plan α} {reader : Reader} {demand : Demand}
    (h : demand ∈ plan.demands reader) : reader.Passes demand.reader := by
  induction plan generalizing reader with
  | pure _ => cases h
  | throw _ _ => cases h
  | number width next ih =>
    cases hread : Read.number width reader with
    | ok value later =>
      have hpasses := (forward_number width).of_ok hread
      rw [demands_number_of_ok hread] at h
      obtain rfl | h := List.mem_cons.mp h
      · exact .refl reader
      · exact hpasses.trans (ih value h)
    | error fault later =>
      rw [demands_number_of_error hread] at h
      obtain rfl := List.mem_singleton.mp h
      exact .refl reader

/-- A plan that runs out of input ends with the demand that is too long. -/
theorem exists_getLast_demands {plan : Plan α} {reader later : Reader} {offset : Nat}
    (h : plan.read reader = .error (.endOfInput offset) later) :
    ∃ width, (plan.demands reader).getLast? = some ⟨width, later⟩ ∧
      later.rest.length < width.size := by
  induction plan generalizing reader with
  | pure _ => cases h
  | throw fault hfault =>
    cases h
    exact absurd rfl (hfault offset)
  | number width next ih =>
    by_cases hsize : width.size ≤ reader.rest.length
    · obtain ⟨value, hread⟩ := (takes_number width reader).1 hsize
      rw [read, bind_of_ok hread] at h
      obtain ⟨last, hlast, hshort⟩ := ih value h
      refine ⟨last, ?_, hshort⟩
      rw [demands_number_of_ok hread, List.getLast?_cons, hlast]
      rfl
    · have hread := (takes_number width reader).2 (Nat.lt_of_not_le hsize)
      rw [read, bind_of_error hread] at h
      cases h
      refine ⟨width, ?_, Nat.lt_of_not_le hsize⟩
      rw [demands_number_of_error hread]
      rfl

end Plan

theorem Stepwise.exists_plan {read : Read α} (h : Stepwise read) :
    ∃ plan : Plan α, plan.read = read := by
  induction h with
  | pure a => exact ⟨.pure a, rfl⟩
  | throw h => exact ⟨.throw _ h, rfl⟩
  | byte _ ih =>
    choose next hnext using ih
    refine ⟨.number .byte fun value => next value.toUInt8, ?_⟩
    simp [Plan.read, number, hnext]
  | word _ ih =>
    choose next hnext using ih
    refine ⟨.number .word next, ?_⟩
    simp only [Plan.read, number, hnext]

end Disasm8086.Read
