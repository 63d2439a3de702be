import Mathlib.Data.List.Dedup

/-! Finite maps read as a log of insertions, newest first. An older binding of a
key is shadowed, so only `get` is observable. -/
namespace DatafusionPostgres.Library

structure HashMap (κ υ : Type) where
  entries : List (κ × υ)
  deriving Repr

namespace HashMap
variable {κ υ : Type} [DecidableEq κ]

def empty : HashMap κ υ := ⟨[]⟩

def get (m : HashMap κ υ) (k : κ) : Option υ := m.entries.lookup k

def insert (m : HashMap κ υ) (k : κ) (v : υ) : HashMap κ υ := ⟨(k, v) :: m.entries⟩

def containsKey (m : HashMap κ υ) (k : κ) : Bool := (m.get k).isSome

/-- Retention by key alone, so a shadowed binding goes or stays with the key. -/
def retain (m : HashMap κ υ) (keep : κ → Bool) : HashMap κ υ :=
  ⟨m.entries.filter (fun e => keep e.1)⟩

def remove (m : HashMap κ υ) (k : κ) : HashMap κ υ := m.retain (fun k' => decide (k' ≠ k))

/-- Bindings of the second map win, as `extend` overwrites. -/
def extend (m n : HashMap κ υ) : HashMap κ υ := ⟨n.entries ++ m.entries⟩

def keys (m : HashMap κ υ) : List κ := (m.entries.map Prod.fst).dedup

@[simp] theorem get_empty (k : κ) : (empty : HashMap κ υ).get k = none := rfl

theorem get_insert (m : HashMap κ υ) (k k' : κ) (v : υ) :
    (m.insert k v).get k' = if k' = k then some v else m.get k' := by
  simp only [get, insert, List.lookup_cons]
  by_cases h : k' = k
  · simp [h]
  · simp [h, beq_eq_false_iff_ne.mpr h]

@[simp] theorem get_insert_self (m : HashMap κ υ) (k : κ) (v : υ) :
    (m.insert k v).get k = some v := by simp [get_insert]

theorem get_insert_of_ne (m : HashMap κ υ) {k k' : κ} (h : k' ≠ k) (v : υ) :
    (m.insert k v).get k' = m.get k' := by simp [get_insert, h]

theorem get_retain (m : HashMap κ υ) (keep : κ → Bool) (k : κ) :
    (m.retain keep).get k = if keep k then m.get k else none := by
  obtain ⟨es⟩ := m
  simp only [get, retain]
  induction es with
  | nil => simp
  | cons e es ih =>
    obtain ⟨k', v⟩ := e
    by_cases hk : k = k'
    · subst hk
      cases h : keep k <;> simp [h, ih]
    · have hb : (k == k') = false := beq_eq_false_iff_ne.mpr hk
      cases h : keep k' <;> simp [h, List.lookup_cons, hb, ih]

theorem get_remove (m : HashMap κ υ) (k k' : κ) :
    (m.remove k).get k' = if k' = k then none else m.get k' := by
  simp only [remove, get_retain, decide_eq_true_eq, ite_not]

theorem remove_insert_self (m : HashMap κ υ) (k : κ) (v : υ) : (m.insert k v).remove k = m.remove k := by
  simp [remove, retain, insert]

theorem remove_insert_of_ne (m : HashMap κ υ) {k k' : κ} (h : k ≠ k') (v : υ) :
    (m.insert k v).remove k' = (m.remove k').insert k v := by
  simp [remove, retain, insert, h]

theorem remove_comm (m : HashMap κ υ) (k k' : κ) : (m.remove k).remove k' = (m.remove k').remove k := by
  simp only [remove, retain, List.filter_filter, Bool.and_comm]

theorem get_extend (m n : HashMap κ υ) (k : κ) :
    (m.extend n).get k = (n.get k).or (m.get k) := by
  simp only [get, extend, List.lookup_append]

theorem mem_entries_of_get {m : HashMap κ υ} {k : κ} {v : υ} (h : m.get k = some v) :
    (k, v) ∈ m.entries := by
  obtain ⟨before, after, he, _⟩ := List.lookup_eq_some_iff.mp h
  rw [he]
  simp

theorem containsKey_iff (m : HashMap κ υ) (k : κ) :
    m.containsKey k = true ↔ k ∈ m.entries.map Prod.fst := by
  simp only [containsKey, get, List.lookup_isSome_iff, List.mem_map, beq_iff_eq]
  constructor
  · rintro ⟨e, he, rfl⟩
    exact ⟨e, he, rfl⟩
  · rintro ⟨e, he, rfl⟩
    exact ⟨e, he, rfl⟩

/-- When no key was inserted twice every logged binding is the observable one. -/
theorem get_of_mem_of_nodup {m : HashMap κ υ} (hn : (m.entries.map Prod.fst).Nodup)
    {k : κ} {v : υ} (h : (k, v) ∈ m.entries) : m.get k = some v := by
  obtain ⟨es⟩ := m
  simp only [get] at *
  induction es with
  | nil => cases h
  | cons e es ih =>
    obtain ⟨k', v'⟩ := e
    rw [List.map_cons, List.nodup_cons] at hn
    rcases List.mem_cons.mp h with he | hm
    · cases he
      simp
    · have hne : k ≠ k' := by
        rintro rfl
        exact hn.1 (List.mem_map.mpr ⟨(k, v), hm, rfl⟩)
      rw [List.lookup_cons, beq_eq_false_iff_ne.mpr hne]
      exact ih hn.2 hm

theorem mem_keys_iff (m : HashMap κ υ) (k : κ) : k ∈ m.keys ↔ ∃ v, m.get k = some v := by
  rw [keys, List.mem_dedup, ← containsKey_iff, containsKey, Option.isSome_iff_exists]

end HashMap
end DatafusionPostgres.Library
