import Mathlib.Data.List.Nodup
import Mathlib.Data.Set.Function
import Mathlib.Order.Interval.Set.Defs

/-! Identifiers for keys: a fixed one, a cached one, or the next one of a counter.
`encode n` is the identifier that the counter yields at count `n`. -/
namespace DatafusionPostgres.Library

section Allocation
variable {κ ι : Type} (fixed : κ → Option ι) (encode : Nat → ι)

/-- The identifier that a key has without a new one. -/
def knownId (cache : κ → Option ι) (k : κ) : Option ι := (fixed k).or (cache k)

/-- Identifiers given to keys in turn, with the count before and after. The cache is
only read: a key asked for twice without a known identifier gets two. -/
inductive Assigned (cache : κ → Option ι) : Nat → List (κ × ι) → Nat → Prop where
  | done (n : Nat) : Assigned cache n [] n
  | known {n m : Nat} {k : κ} {id : ι} {events : List (κ × ι)}
      (hid : knownId fixed cache k = some id) (rest : Assigned cache n events m) :
      Assigned cache n ((k, id) :: events) m
  | fresh {n m : Nat} {k : κ} {events : List (κ × ι)}
      (hid : knownId fixed cache k = none) (rest : Assigned cache (n + 1) events m) :
      Assigned cache n ((k, encode n) :: events) m

/-- The log names the key that each identifier issued since `base` was issued for. -/
def Issued (base : Nat) (log : List κ) (k : κ) (id : ι) : Prop :=
  ∃ i, log[i]? = some k ∧ id = encode (base + i)

variable {fixed encode} {cache : κ → Option ι} {n m l : Nat} {events later : List (κ × ι)}

namespace Assigned

theorem append (h : Assigned fixed encode cache n events m)
    (hlater : Assigned fixed encode cache m later l) :
    Assigned fixed encode cache n (events ++ later) l := by
  induction h with
  | done n => exact hlater
  | known hid _ ih => exact .known hid (ih hlater)
  | fresh hid _ ih => exact .fresh hid (ih hlater)

/-- A key with a known identifier is given that one. -/
theorem eq_of_known (h : Assigned fixed encode cache n events m) {k : κ} {id id' : ι}
    (hmem : (k, id) ∈ events) (hknown : knownId fixed cache k = some id') : id = id' := by
  induction h with
  | done n => cases hmem
  | known hid _ ih =>
    rcases List.mem_cons.mp hmem with heq | hmem
    · cases heq
      exact Option.some.inj (hid.symm.trans hknown)
    · exact ih hmem
  | fresh hid _ ih =>
    rcases List.mem_cons.mp hmem with heq | hmem
    · cases heq
      rw [hid] at hknown
      cases hknown
    · exact ih hmem

/-- What is new was issued from the counter, in order. -/
theorem issues (h : Assigned fixed encode cache n events m) :
    ∃ log, m = n + log.length ∧ ∀ k id, (k, id) ∈ events →
      knownId fixed cache k = some id ∨ Issued encode n log k id := by
  induction h with
  | done n => exact ⟨[], rfl, fun k id hmem => absurd hmem List.not_mem_nil⟩
  | known hid _ ih =>
    obtain ⟨log, hm, hlog⟩ := ih
    refine ⟨log, hm, fun k id hmem => ?_⟩
    rcases List.mem_cons.mp hmem with heq | hmem
    · cases heq
      exact .inl hid
    · exact hlog k id hmem
  | @fresh n m k' events hid _ ih =>
    obtain ⟨log, hm, hlog⟩ := ih
    refine ⟨k' :: log, by rw [hm, List.length_cons]; omega, fun k id hmem => ?_⟩
    rcases List.mem_cons.mp hmem with heq | hmem
    · cases heq
      exact .inr ⟨0, rfl, rfl⟩
    · rcases hlog k id hmem with hk | ⟨i, hi, hid⟩
      · exact .inl hk
      · exact .inr ⟨i + 1, hi, by rw [hid]; congr 1; omega⟩

end Assigned

namespace Issued
variable {base : Nat} {log more : List κ} {k k' : κ} {id : ι}

theorem append_right (h : Issued encode base log k id) :
    Issued encode base (log ++ more) k id := by
  obtain ⟨i, hi, hid⟩ := h
  have hlt : i < log.length := (List.getElem?_eq_some_iff.mp hi).1
  exact ⟨i, by rw [List.getElem?_append_left hlt, hi], hid⟩

theorem append_left (h : Issued encode (base + log.length) more k id) :
    Issued encode base (log ++ more) k id := by
  obtain ⟨i, hi, hid⟩ := h
  refine ⟨log.length + i, ?_, by rw [hid, Nat.add_assoc]⟩
  rw [List.getElem?_append_right (Nat.le_add_right _ _), Nat.add_sub_cancel_left, hi]

/-- While the encoding is injective, an identifier was issued for one key only. -/
theorem unique (hinj : Set.InjOn encode (Set.Ico base (base + log.length)))
    (h : Issued encode base log k id) (h' : Issued encode base log k' id) : k = k' := by
  obtain ⟨i, hi, hid⟩ := h
  obtain ⟨j, hj, hjd⟩ := h'
  have hilt : i < log.length := (List.getElem?_eq_some_iff.mp hi).1
  have hjlt : j < log.length := (List.getElem?_eq_some_iff.mp hj).1
  have hij : base + i = base + j := by
    apply hinj
    · exact ⟨by omega, by omega⟩
    · exact ⟨by omega, by omega⟩
    · rw [← hid, ← hjd]
  have heq : i = j := by omega
  rw [heq, hj] at hi
  exact (Option.some.inj hi).symm

theorem bounds (h : Issued encode base log k id) :
    ∃ n, base ≤ n ∧ n < base + log.length ∧ id = encode n := by
  obtain ⟨i, hi, hid⟩ := h
  have hlt : i < log.length := (List.getElem?_eq_some_iff.mp hi).1
  exact ⟨base + i, by omega, by omega, hid⟩

end Issued
end Allocation
end DatafusionPostgres.Library
