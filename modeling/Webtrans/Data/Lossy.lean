import Mathlib.Algebra.Order.Group.Multiset
import Webtrans.Data.Transition

namespace Webtrans.Data

/-! Packets that may be lost and overtaken, but are neither made up nor copied. -/

structure Lossy (π : Type u) where
  sent : List π := []
  flying : List π := []
  /-- Packets that wait for the receiver, in the order of their arrival. -/
  arrived : List π := []
  taken : List π := []
  lost : List π := []
deriving DecidableEq

namespace Lossy

variable {π : Type u} {ρ : Type v} {net after : Lossy π}

def send (packet : π) (net : Lossy π) : Lossy π :=
  { net with sent := net.sent ++ [packet], flying := net.flying ++ [packet] }

def lose (index : Nat) (net : Lossy π) : Option (Lossy π) :=
  match net.flying[index]? with
  | some packet => some { net with flying := net.flying.eraseIdx index, lost := net.lost ++ [packet] }
  | none => none

def deliver (index : Nat) (net : Lossy π) : Option (Lossy π) :=
  match net.flying[index]? with
  | some packet => some { net with flying := net.flying.eraseIdx index, arrived := net.arrived ++ [packet] }
  | none => none

/-- The receiver has no room for a packet. -/
def discard (index : Nat) (net : Lossy π) : Option (Lossy π) :=
  match net.arrived[index]? with
  | some packet => some { net with arrived := net.arrived.eraseIdx index, lost := net.lost ++ [packet] }
  | none => none

def take (net : Lossy π) : Option (Lossy π) :=
  match net.arrived with
  | packet :: arrived => some { net with arrived, taken := net.taken ++ [packet] }
  | [] => none

/-- Every packet that was sent is in one place. -/
def Conserved (net : Lossy π) : Prop :=
  (net.sent : Multiset π) = net.taken + net.arrived + net.flying + net.lost

theorem coe_eraseIdx {packets : List π} {index : Nat} {packet : π} (found : packets[index]? = some packet) :
    (packets : Multiset π) = {packet} + packets.eraseIdx index := by
  obtain ⟨inside, rfl⟩ := List.getElem?_eq_some_iff.mp found
  rw [Multiset.singleton_add, Multiset.cons_coe, Multiset.coe_eq_coe]
  exact (List.getElem_cons_eraseIdx_perm inside).symm

theorem coe_concat (packets : List π) (packet : π) :
    ((packets ++ [packet] : List π) : Multiset π) = packets + {packet} := by
  rw [← Multiset.coe_add, Multiset.coe_singleton]

theorem conserved_start : ({} : Lossy π).Conserved := by
  simp [Conserved]

theorem Conserved.send (conserved : net.Conserved) (packet : π) : (net.send packet).Conserved := by
  rw [Conserved] at *
  simp only [Lossy.send, coe_concat, conserved]
  ac_rfl

theorem Conserved.lose {index : Nat} (conserved : net.Conserved) (lost : net.lose index = some after) :
    after.Conserved ∧ after.sent = net.sent := by
  rw [Lossy.lose] at lost
  split at lost
  next packet found =>
    cases lost
    refine ⟨?_, rfl⟩
    rw [Conserved] at *
    simp only [coe_concat, conserved, coe_eraseIdx found]
    ac_rfl
  next => cases lost

theorem Conserved.deliver {index : Nat} (conserved : net.Conserved) (delivered : net.deliver index = some after) :
    after.Conserved ∧ after.sent = net.sent := by
  rw [Lossy.deliver] at delivered
  split at delivered
  next packet found =>
    cases delivered
    refine ⟨?_, rfl⟩
    rw [Conserved] at *
    simp only [coe_concat, conserved, coe_eraseIdx found]
    ac_rfl
  next => cases delivered

theorem Conserved.discard {index : Nat} (conserved : net.Conserved) (discarded : net.discard index = some after) :
    after.Conserved ∧ after.sent = net.sent := by
  rw [Lossy.discard] at discarded
  split at discarded
  next packet found =>
    cases discarded
    refine ⟨?_, rfl⟩
    rw [Conserved] at *
    simp only [coe_concat, conserved, coe_eraseIdx found]
    ac_rfl
  next => cases discarded

theorem Conserved.take (conserved : net.Conserved) (taken : net.take = some after) :
    after.Conserved ∧ after.sent = net.sent := by
  rw [Lossy.take] at taken
  split at taken
  next packet arrived found =>
    cases taken
    refine ⟨?_, rfl⟩
    rw [Conserved] at *
    rw [found, ← List.singleton_append, ← Multiset.coe_add, Multiset.coe_singleton] at conserved
    simp only [coe_concat, conserved]
    ac_rfl
  next => cases taken

/-- What the packets carry is conserved with them. -/
theorem Conserved.filterMap (conserved : net.Conserved) (reads : π → Option ρ) :
    (net.taken.filterMap reads ++ net.arrived.filterMap reads ++ net.flying.filterMap reads ++
      net.lost.filterMap reads).Perm (net.sent.filterMap reads) := by
  rw [← List.filterMap_append, ← List.filterMap_append, ← List.filterMap_append]
  apply List.Perm.filterMap
  rw [← Multiset.coe_eq_coe, ← Multiset.coe_add, ← Multiset.coe_add, ← Multiset.coe_add]
  exact conserved.symm

/-- How many more steps the packets take if none is lost. -/
def toGo (net : Lossy π) : Nat :=
  2 * net.flying.length + net.arrived.length

theorem toGo_deliver {index : Nat} (delivered : net.deliver index = some after) : after.toGo < net.toGo := by
  rw [deliver] at delivered
  split at delivered
  next packet found =>
    cases delivered
    have inside := (List.getElem?_eq_some_iff.mp found).1
    simp only [toGo, List.length_eraseIdx_of_lt inside, List.length_append, List.length_singleton]
    omega
  next => cases delivered

theorem toGo_take (taken : net.take = some after) : after.toGo < net.toGo := by
  rw [take] at taken
  split at taken
  next packet arrived found =>
    cases taken
    simp only [toGo, found, List.length_cons]
    omega
  next => cases taken

/-- Until all are taken, the next packet can be delivered or taken. -/
theorem progress (net : Lossy π) : (net.flying = [] ∧ net.arrived = []) ∨ (∃ after, net.take = some after) ∨
    ∃ after, net.deliver 0 = some after := by
  cases arrived : net.arrived with
  | cons packet rest => exact .inr (.inl ⟨_, by rw [take, arrived]⟩)
  | nil =>
      cases flying : net.flying with
      | nil => exact .inl ⟨rfl, rfl⟩
      | cons packet rest => exact .inr (.inr ⟨_, by rw [deliver, flying]; rfl⟩)

end Lossy

end Webtrans.Data
