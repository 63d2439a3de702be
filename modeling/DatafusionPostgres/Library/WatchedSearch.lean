import DatafusionPostgres.Library.Search

/-! Depth-first search of a graph that others change while the search goes on. Each look is atomic,
and anything may happen to the graph between two looks. -/
namespace DatafusionPostgres.Library
open Relation

section Watching
variable {σ β γ : Type}

/-- Programs that look at a state shared with others: what the `i`-th look sees is `moments i`. The
result comes with the number of looks taken so far; `none` is no result. -/
abbrev Watching (σ : Type) : Type → Type := ReaderT (Nat → σ) (StateT Nat Option)

def observe (view : σ → β) : Watching σ β := fun moments i => some (view (moments i), i + 1)

theorem observe_bind (view : σ → β) (next : β → Watching σ γ) (moments : Nat → σ) (i : Nat) :
    (observe view >>= next) moments i = next (view (moments i)) moments (i + 1) := rfl

theorem watching_bind {prog : Watching σ β} {next : β → Watching σ γ} {moments : Nat → σ}
    {i j : Nat} {c : γ} (h : (prog >>= next) moments i = some (c, j)) :
    ∃ b k, prog moments i = some (b, k) ∧ next b moments k = some (c, j) := by
  cases hprog : prog moments i with
  | none =>
    have hnone : (prog >>= next) moments i = none := by
      change (prog moments i).bind (fun r => next r.1 moments r.2) = none
      rw [hprog]
      rfl
    rw [hnone] at h
    cases h
  | some r =>
    have hsome : (prog >>= next) moments i = next r.1 moments r.2 := by
      change (prog moments i).bind (fun r => next r.1 moments r.2) = _
      rw [hprog]
      rfl
    exact ⟨r.1, r.2, rfl, hsome ▸ h⟩

theorem watching_bind_some {prog : Watching σ β} {moments : Nat → σ} {i k : Nat} {b : β}
    (h : prog moments i = some (b, k)) (next : β → Watching σ γ) :
    (prog >>= next) moments i = next b moments k := by
  change (prog moments i).bind (fun r => next r.1 moments r.2) = _
  rw [h]
  rfl

end Watching

section Loop
variable {σ α : Type} {f g : α → Watching σ Bool} {moments : Nat → σ} {as : List α} {i j : Nat}

/-- A loop that stops at a hit has one, and comes to it no earlier than it starts. -/
theorem watching_anyM_true (hforward : ∀ a i b j, f a moments i = some (b, j) → i ≤ j)
    (h : as.anyM f moments i = some (true, j)) :
    ∃ a ∈ as, ∃ t, i ≤ t ∧ f a moments t = some (true, j) := by
  induction as generalizing i with
  | nil => cases h
  | cons a as ih =>
    rw [List.anyM_cons] at h
    obtain ⟨b, k, ha, hrest⟩ := watching_bind h
    cases b with
    | true =>
      cases hrest
      exact ⟨a, List.mem_cons_self, i, le_rfl, ha⟩
    | false =>
      obtain ⟨c, hc, t, ht, hfound⟩ := ih hrest
      exact ⟨c, List.mem_cons_of_mem a hc, t, (hforward a i false k ha).trans ht, hfound⟩

/-- A loop without a hit has missed with each element, within its own time. -/
theorem watching_anyM_false (hforward : ∀ a i b j, f a moments i = some (b, j) → i ≤ j)
    (h : as.anyM f moments i = some (false, j)) :
    i ≤ j ∧ ∀ a ∈ as, ∃ t k, i ≤ t ∧ k ≤ j ∧ f a moments t = some (false, k) := by
  induction as generalizing i with
  | nil =>
    cases h
    exact ⟨le_rfl, fun a ha => absurd ha List.not_mem_nil⟩
  | cons a as ih =>
    rw [List.anyM_cons] at h
    obtain ⟨b, k, ha, hrest⟩ := watching_bind h
    cases b with
    | true => cases hrest
    | false =>
      obtain ⟨hkj, hmisses⟩ := ih hrest
      have hik : i ≤ k := hforward a i false k ha
      refine ⟨hik.trans hkj, List.forall_mem_cons.mpr ⟨⟨i, k, le_rfl, hkj, ha⟩, ?_⟩⟩
      intro c hc
      obtain ⟨t, k', ht, hk', hmiss⟩ := hmisses c hc
      exact ⟨t, k', hik.trans ht, hk', hmiss⟩

theorem watching_anyM_answers (h : ∀ a ∈ as, ∀ i, ∃ b j, f a moments i = some (b, j)) (i : Nat) :
    ∃ b j, as.anyM f moments i = some (b, j) := by
  induction as generalizing i with
  | nil => exact ⟨false, i, rfl⟩
  | cons a as ih =>
    obtain ⟨b, k, ha⟩ := h a List.mem_cons_self i
    rw [List.anyM_cons, watching_bind_some ha]
    cases b with
    | true => exact ⟨true, k, rfl⟩
    | false => exact ih (fun c hc => h c (List.mem_cons_of_mem a hc)) k

theorem watching_anyM_mono {b : Bool}
    (hfg : ∀ a ∈ as, ∀ i r, f a moments i = some r → g a moments i = some r)
    (h : as.anyM f moments i = some (b, j)) : as.anyM g moments i = some (b, j) := by
  induction as generalizing i with
  | nil => exact h
  | cons a as ih =>
    rw [List.anyM_cons] at h ⊢
    obtain ⟨c, k, ha, hrest⟩ := watching_bind h
    rw [watching_bind_some (hfg a List.mem_cons_self i (c, k) ha)]
    cases c with
    | true => exact hrest
    | false => exact ih (fun c hc => hfg c (List.mem_cons_of_mem a hc)) hrest

end Loop

section WatchedSearch
variable {σ α : Type} (goal : σ → α → Bool) (next : σ → α → List α)

/-- The search takes one look at a node for both its goal and its successors. -/
def watchedSearch : Nat → α → Watching σ Bool
  | 0, _ => failure
  | n + 1, a => do
    let seen ← observe fun s => (goal s a, next s a)
    if seen.1 then pure true else seen.2.anyM (watchedSearch n)

/-- A path whose edges are seen one after another, from a node looked at in the first moment to one
looked at in the second. -/
inductive SeenPath (edge : σ → α → α → Prop) (moments : Nat → σ) : Nat → α → Nat → α → Prop where
  | here (t : Nat) (a : α) : SeenPath edge moments t a t a
  | along {t u v : Nat} {a b c : α} (hedge : edge (moments t) a b) (hlater : t < u)
      (hpath : SeenPath edge moments u b v c) : SeenPath edge moments t a v c

variable {goal next}

theorem watchedSearch_succ (n : Nat) (a : α) (moments : Nat → σ) (i : Nat) :
    watchedSearch goal next (n + 1) a moments i =
      if goal (moments i) a then some (true, i + 1)
      else (next (moments i) a).anyM (watchedSearch goal next n) moments (i + 1) := by
  rw [watchedSearch, observe_bind]
  split
  · rfl
  · rfl

/-- Every search takes a look. -/
theorem watchedSearch_forward {n : Nat} {a : α} {moments : Nat → σ} {i j : Nat} {b : Bool}
    (h : watchedSearch goal next n a moments i = some (b, j)) : i < j := by
  induction n generalizing a i b j with
  | zero => cases h
  | succ n ih =>
    rw [watchedSearch_succ] at h
    split at h
    · cases h
      exact Nat.lt_succ_self i
    · have hforward : ∀ a i b j, watchedSearch goal next n a moments i = some (b, j) → i ≤ j :=
        fun a i b j hsearch => (ih hsearch).le
      cases b with
      | true =>
        obtain ⟨c, _, t, ht, hfound⟩ := watching_anyM_true hforward h
        exact Nat.lt_of_succ_le (ht.trans (hforward c t true j hfound))
      | false => exact Nat.lt_of_succ_le (watching_anyM_false hforward h).1

private theorem watchedSearch_forward_le {n : Nat} {moments : Nat → σ} (a : α) (i : Nat) (b : Bool)
    (j : Nat) (h : watchedSearch goal next n a moments i = some (b, j)) : i ≤ j :=
  (watchedSearch_forward h).le

/-- A positive answer has seen a path edge by edge, and a goal at its end. -/
theorem watchedSearch_true {n : Nat} {a : α} {moments : Nat → σ} {i j : Nat}
    (h : watchedSearch goal next n a moments i = some (true, j)) :
    ∃ u b, SeenPath (fun s => Edge (next s)) moments i a u b ∧ u < j ∧
      goal (moments u) b = true := by
  induction n generalizing a i with
  | zero => cases h
  | succ n ih =>
    rw [watchedSearch_succ] at h
    split at h
    · cases h
      exact ⟨i, a, .here i a, Nat.lt_succ_self i, ‹_›⟩
    · obtain ⟨c, hc, t, ht, hfound⟩ := watching_anyM_true watchedSearch_forward_le h
      obtain ⟨u, b, hpath, hu, hgoal⟩ := ih hfound
      exact ⟨u, b, .along hc (Nat.lt_of_succ_le ht) hpath, hu, hgoal⟩

/-- A negative answer has seen every node that stays reachable, at a moment when it was no goal. -/
theorem watchedSearch_false {n : Nat} {a b : α} {moments : Nat → σ} {i j : Nat}
    (h : watchedSearch goal next n a moments i = some (false, j))
    (hpath : ReflTransGen (fun a b => ∀ t, i ≤ t → t < j → Edge (next (moments t)) a b) a b) :
    ∃ t, i ≤ t ∧ t < j ∧ goal (moments t) b = false := by
  induction n generalizing a i j with
  | zero => cases h
  | succ n ih =>
    have hij : i < j := watchedSearch_forward h
    rw [watchedSearch_succ] at h
    split at h
    · cases h
    · rename_i hmiss
      rcases hpath.cases_head with rfl | ⟨c, hedge, hrest⟩
      · exact ⟨i, le_rfl, hij, Bool.eq_false_iff.mpr hmiss⟩
      · obtain ⟨t, k, ht, hk, hsearch⟩ :=
          (watching_anyM_false watchedSearch_forward_le h).2 c (hedge i le_rfl hij)
        have hshorter : ReflTransGen
            (fun a b => ∀ u, t ≤ u → u < k → Edge (next (moments u)) a b) c b :=
          ReflTransGen.mono (fun _ _ hstays u hu hu' => hstays u (by omega) (by omega)) _ _ hrest
        obtain ⟨u, hu, hu', hgoal⟩ := ih hsearch hshorter
        exact ⟨u, by omega, by omega, hgoal⟩

theorem watchedSearch_mono {n m : Nat} {a : α} {moments : Nat → σ} {i : Nat} {r : Bool × Nat}
    (hnm : n ≤ m) (h : watchedSearch goal next n a moments i = some r) :
    watchedSearch goal next m a moments i = some r := by
  induction n generalizing m a i r with
  | zero => cases h
  | succ n ih =>
    obtain ⟨m, rfl⟩ : ∃ k, m = k + 1 := ⟨m - 1, by omega⟩
    rw [watchedSearch_succ] at h ⊢
    split at h
    · rename_i hgoal
      rw [if_pos hgoal]
      exact h
    · rename_i hmiss
      rw [if_neg hmiss]
      exact watching_anyM_mono (fun c _ i r hc => ih (by omega) hc) h

private theorem watched_common_bound {as : List α} {moments : Nat → σ}
    (h : ∀ a ∈ as, ∃ n, ∀ i, ∃ b j, watchedSearch goal next n a moments i = some (b, j)) :
    ∃ n, ∀ a ∈ as, ∀ i, ∃ b j, watchedSearch goal next n a moments i = some (b, j) := by
  induction as with
  | nil => exact ⟨0, fun a ha => absurd ha List.not_mem_nil⟩
  | cons a as ih =>
    obtain ⟨n, hn⟩ := h a List.mem_cons_self
    obtain ⟨m, hm⟩ := ih fun c hc => h c (List.mem_cons_of_mem a hc)
    refine ⟨max n m, List.forall_mem_cons.mpr ⟨fun i => ?_, fun c hc i => ?_⟩⟩
    · obtain ⟨b, j, ha⟩ := hn i
      exact ⟨b, j, watchedSearch_mono (le_max_left n m) ha⟩
    · obtain ⟨b, j, ha⟩ := hm c hc i
      exact ⟨b, j, watchedSearch_mono (le_max_right n m) ha⟩

/-- The search answers while it sees no edge outside a graph without infinite paths. -/
theorem watchedSearch_answers {moments : Nat → σ} {bound : α → List α}
    (hbound : ∀ t a, next (moments t) a ⊆ bound a) {a : α}
    (ha : Acc (fun x y => Edge bound y x) a) :
    ∃ n, ∀ i, ∃ b j, watchedSearch goal next n a moments i = some (b, j) := by
  induction ha with
  | intro a _ ih =>
    obtain ⟨n, hn⟩ := watched_common_bound ih
    refine ⟨n + 1, fun i => ?_⟩
    rw [watchedSearch_succ]
    split
    · exact ⟨true, i + 1, rfl⟩
    · exact watching_anyM_answers (fun c hc => hn c (hbound i a hc)) (i + 1)

theorem watchedSearch_answers_all (goal : σ → α → Bool) {moments : Nat → σ} {bound : α → List α}
    (hbound : ∀ t a, next (moments t) a ⊆ bound a) {as : List α}
    (has : ∀ a ∈ as, Acc (fun x y => Edge bound y x) a) :
    ∃ n, ∀ a ∈ as, ∀ i, ∃ b j, watchedSearch goal next n a moments i = some (b, j) :=
  watched_common_bound fun a ha => watchedSearch_answers hbound (has a ha)

section Bounded
variable {moments : Nat → σ} {edge : σ → α → α → Prop} {r : α → α → Prop} {a b : α} {t u : Nat}

theorem SeenPath.le (h : SeenPath edge moments t a u b) : t ≤ u := by
  induction h with
  | here t a => exact le_rfl
  | along _ hlater _ ih => exact hlater.le.trans ih

/-- A path seen within the edges of one graph is a path of that graph. -/
theorem SeenPath.path (h : SeenPath edge moments t a u b)
    (hbound : ∀ v, v ≤ u → ∀ a b, edge (moments v) a b → r a b) : ReflTransGen r a b := by
  induction h with
  | here t a => exact .refl
  | along hedge hlater hpath ih =>
    exact .head (hbound _ (hlater.le.trans hpath.le) _ _ hedge) (ih hbound)

end Bounded

end WatchedSearch
end DatafusionPostgres.Library
