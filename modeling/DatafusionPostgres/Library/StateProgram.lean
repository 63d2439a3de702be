import Mathlib.Data.List.Basic

/-! Rules of pre- and postconditions for programs that change a state and may fail
in the state they have reached. -/
namespace DatafusionPostgres.Library

section StateProgram
variable {ε σ α β : Type} {fail : σ → Prop}

theorem run_bind_ok {prog : EStateM ε σ α} {s s' : σ} {a : α} (h : prog s = .ok a s')
    (next : α → EStateM ε σ β) : (prog >>= next) s = next a s' := by
  change EStateM.bind prog next s = _
  simp only [EStateM.bind, h]

theorem run_bind_error {prog : EStateM ε σ α} {s s' : σ} {e : ε} (h : prog s = .error e s')
    (next : α → EStateM ε σ β) : (prog >>= next) s = .error e s' := by
  change EStateM.bind prog next s = _
  simp only [EStateM.bind, h]

/-- What a sequence does from a state depends on what its first part does from it. -/
theorem run_bind_congr {prog prog' : EStateM ε σ α} {s : σ} (h : prog s = prog' s)
    (next : α → EStateM ε σ β) : (prog >>= next) s = (prog' >>= next) s := by
  change EStateM.bind prog next s = EStateM.bind prog' next s
  simp only [EStateM.bind, h]

theorem run_modifyGet (f : σ → α × σ) (s : σ) :
    (modifyGet f : EStateM ε σ α) s = .ok (f s).1 (f s).2 := rfl

/-- A run of two programs that returns is a run of each. -/
theorem run_bind_eq_ok {prog : EStateM ε σ α} {next : α → EStateM ε σ β} {s s'' : σ} {b : β}
    (h : (prog >>= next) s = .ok b s'') :
    ∃ a s', prog s = .ok a s' ∧ next a s' = .ok b s'' := by
  cases hp : prog s with
  | ok a s' => exact ⟨a, s', rfl, by rwa [run_bind_ok hp] at h⟩
  | error e s' =>
    rw [run_bind_error hp] at h
    cases h

theorem run_map_eq_ok {prog : EStateM ε σ α} {f : α → β} {s s' : σ} {b : β}
    (h : (f <$> prog) s = .ok b s') : ∃ a, prog s = .ok a s' ∧ f a = b := by
  rw [map_eq_pure_bind] at h
  obtain ⟨a, s'', hrun, hpure⟩ := run_bind_eq_ok h
  cases hpure
  exact ⟨a, hrun, rfl⟩

/-- From `s` the program returns within `post`, or fails in a state within `fail`. -/
def Meets (prog : EStateM ε σ α) (s : σ) (post : α → σ → Prop) (fail : σ → Prop) : Prop :=
  match prog s with
  | .ok a s' => post a s'
  | .error _ s' => fail s'

namespace Meets

theorem pure {a : α} {s : σ} {post : α → σ → Prop} (h : post a s) :
    Meets (Pure.pure a : EStateM ε σ α) s post fail := h

theorem throw {e : ε} {s : σ} {post : α → σ → Prop} (h : fail s) :
    Meets (MonadExcept.throw e : EStateM ε σ α) s post fail := h

theorem modifyGet {f : σ → α × σ} {s : σ} {post : α → σ → Prop} (h : post (f s).1 (f s).2) :
    Meets (MonadState.modifyGet f : EStateM ε σ α) s post fail := h

theorem get {s : σ} {post : σ → σ → Prop} (h : post s s) :
    Meets (MonadState.get : EStateM ε σ σ) s post fail := h

theorem bind {prog : EStateM ε σ α} {next : α → EStateM ε σ β} {s : σ} {post : β → σ → Prop}
    (h : Meets prog s (fun a s' => Meets (next a) s' post fail) fail) :
    Meets (prog >>= next) s post fail := by
  unfold Meets at *
  cases hp : prog s with
  | ok a s' =>
    rw [run_bind_ok hp]
    simpa only [hp] using h
  | error e s' =>
    rw [run_bind_error hp]
    simpa only [hp] using h

/-- A first program whose run is known. -/
theorem bind_run {prog : EStateM ε σ α} {next : α → EStateM ε σ β} {s s' : σ} {a : α}
    {post : β → σ → Prop} (hrun : prog s = .ok a s') (h : Meets (next a) s' post fail) :
    Meets (prog >>= next) s post fail := by
  apply bind
  unfold Meets
  rw [hrun]
  exact h

theorem mono {prog : EStateM ε σ α} {s : σ} {post post' : α → σ → Prop}
    (h : Meets prog s post fail) (hpost : ∀ a s', post a s' → post' a s') :
    Meets prog s post' fail := by
  unfold Meets at *
  cases hp : prog s with
  | ok a s' => exact hpost a s' (by simpa only [hp] using h)
  | error e s' => simpa only [hp] using h

/-- The postcondition may name the run itself. -/
theorem with_run {prog : EStateM ε σ α} {s : σ} {post : α → σ → Prop}
    (h : Meets prog s post fail) :
    Meets prog s (fun a s' => prog s = .ok a s' ∧ post a s') fail := by
  unfold Meets at *
  cases hp : prog s with
  | ok a s' => exact ⟨rfl, by simpa only [hp] using h⟩
  | error e s' => simpa only [hp] using h

theorem map {prog : EStateM ε σ α} {f : α → β} {s : σ} {post : β → σ → Prop}
    (h : Meets prog s (fun a s' => post (f a) s') fail) : Meets (f <$> prog) s post fail := by
  rw [map_eq_pure_bind]
  exact bind (h.mono fun _ _ => pure)

/-- Whatever the first program comes to, the second meets its postcondition from there. -/
theorem bind_any {prog : EStateM ε σ α} {next : α → EStateM ε σ β} {s : σ} {post : β → σ → Prop}
    (h : ∀ a s', Meets (next a) s' post fail) (hfail : ∀ s', fail s') :
    Meets (prog >>= next) s post fail := by
  apply bind
  unfold Meets
  cases prog s with
  | ok a s' => exact h a s'
  | error e s' => exact hfail s'

/-- A call that may fail leaves the state as it was. -/
theorem call {call : Except ε α} {s : σ} {post : α → σ → Prop}
    (hpost : ∀ a, call = .ok a → post a s) (hfail : fail s) :
    Meets (liftExcept call : EStateM ε σ α) s post fail := by
  cases call with
  | ok a => exact hpost a rfl
  | error e => exact hfail

/-- A loop whose invariant speaks of the part of the list already done. -/
theorem loop {body : β → EStateM ε σ PUnit} {bs : List β} {s : σ} (inv : List β → σ → Prop)
    (hbody : ∀ done b s', done ++ [b] <+: bs → inv done s' →
      Meets (body b) s' (fun _ s'' => inv (done ++ [b]) s'') fail)
    (h0 : inv [] s) : Meets (ForM.forM bs body) s (fun _ s' => inv bs s') fail := by
  suffices h : ∀ rest done s', done ++ rest = bs → inv done s' →
      Meets (ForM.forM rest body) s' (fun _ s'' => inv bs s'') fail from h bs [] s rfl h0
  intro rest
  induction rest with
  | nil =>
    intro done s' hdone hinv
    rw [List.append_nil] at hdone
    exact pure (hdone ▸ hinv)
  | cons b rest ih =>
    intro done s' hdone hinv
    have hsplit : done ++ [b] ++ rest = bs := by rw [← hdone, List.append_assoc]; rfl
    rw [List.forM_cons]
    apply bind
    apply (hbody done b s' ⟨rest, hsplit⟩ hinv).mono
    intro _ s'' hinv'
    exact ih (done ++ [b]) s'' hsplit hinv'

end Meets

/-- Every value that the program returns, from any state, satisfies `Q`. -/
def Returns (Q : α → Prop) (prog : EStateM ε σ α) : Prop :=
  ∀ s, Meets prog s (fun a _ => Q a) (fun _ => True)

namespace Returns
variable {Q : α → Prop} {R : β → Prop}

theorem pure {a : α} (h : Q a) : Returns Q (Pure.pure a : EStateM ε σ α) := fun _ => Meets.pure h

theorem any {prog : EStateM ε σ α} (h : ∀ a, Q a) : Returns Q prog := by
  intro s
  unfold Meets
  cases prog s with
  | ok a s' => exact h a
  | error e s' => trivial

theorem modifyGet {f : σ → α × σ} (h : ∀ s, Q (f s).1) :
    Returns Q (MonadState.modifyGet f : EStateM ε σ α) := fun s => Meets.modifyGet (h s)

theorem bind {prog : EStateM ε σ β} {next : β → EStateM ε σ α} (h : Returns R prog)
    (hnext : ∀ b, R b → Returns Q (next b)) : Returns Q (prog >>= next) := by
  intro s
  apply Meets.bind
  apply (h s).mono
  intro b s' hb
  exact hnext b hb s'

theorem bind_any {prog : EStateM ε σ β} {next : β → EStateM ε σ α}
    (hnext : ∀ b, Returns Q (next b)) : Returns Q (prog >>= next) :=
  fun _ => Meets.bind_any (fun b s' => hnext b s') fun _ => trivial

theorem map {prog : EStateM ε σ β} {f : β → α} (h : Returns R prog) (hf : ∀ b, R b → Q (f b)) :
    Returns Q (f <$> prog) := by
  rw [map_eq_pure_bind]
  exact h.bind fun b hb => pure (hf b hb)

theorem and {Q' : α → Prop} {prog : EStateM ε σ α} (h : Returns Q prog) (h' : Returns Q' prog) :
    Returns (fun a => Q a ∧ Q' a) prog := by
  intro s
  have hQ := h s
  have hQ' := h' s
  unfold Meets at *
  cases hp : prog s with
  | ok a s' => exact ⟨by simpa only [hp] using hQ, by simpa only [hp] using hQ'⟩
  | error e s' => trivial

/-- The value of a run satisfies `Q`. -/
theorem value {prog : EStateM ε σ α} (h : Returns Q prog) {s s' : σ} {a : α}
    (hrun : prog s = .ok a s') : Q a := by
  have hmeets := h s
  unfold Meets at hmeets
  rwa [hrun] at hmeets

end Returns

/-- The program always returns, and neither reads nor writes the part that `put` sets. -/
def Frames {τ : Type} (put : τ → σ → σ) (prog : EStateM ε σ α) : Prop :=
  ∀ s, ∃ a s', prog s = .ok a s' ∧ ∀ t, prog (put t s) = .ok a (put t s')

namespace Frames
variable {τ : Type} {put : τ → σ → σ}

theorem pure (a : α) : Frames put (Pure.pure a : EStateM ε σ α) :=
  fun s => ⟨a, s, rfl, fun _ => rfl⟩

theorem modifyGet {f : σ → α × σ} (h : ∀ s t, f (put t s) = ((f s).1, put t (f s).2)) :
    Frames put (MonadState.modifyGet f : EStateM ε σ α) := by
  intro s
  refine ⟨(f s).1, (f s).2, rfl, fun t => ?_⟩
  change EStateM.Result.ok (f (put t s)).1 (f (put t s)).2 = _
  rw [h]

theorem bind {prog : EStateM ε σ α} {next : α → EStateM ε σ β} (hprog : Frames put prog)
    (hnext : ∀ a, Frames put (next a)) : Frames put (prog >>= next) := by
  intro s
  obtain ⟨a, s', hrun, hput⟩ := hprog s
  obtain ⟨b, s'', hrun', hput'⟩ := hnext a s'
  refine ⟨b, s'', ?_, fun t => ?_⟩
  · rw [run_bind_ok hrun, hrun']
  · rw [run_bind_ok (hput t), hput']

theorem map {prog : EStateM ε σ α} (hprog : Frames put prog) (f : α → β) :
    Frames put (f <$> prog) := by
  rw [map_eq_pure_bind]
  exact hprog.bind fun a => pure (f a)

end Frames

/-- The program always returns, and leaves the part as it is. -/
def Leaves {τ : Type} (part : σ → τ) (prog : EStateM ε σ α) : Prop :=
  ∀ s, ∃ a s', prog s = .ok a s' ∧ part s' = part s

namespace Leaves
variable {τ : Type} {part : σ → τ}

theorem pure (a : α) : Leaves part (Pure.pure a : EStateM ε σ α) := fun s => ⟨a, s, rfl, rfl⟩

theorem modifyGet {f : σ → α × σ} (h : ∀ s, part (f s).2 = part s) :
    Leaves part (MonadState.modifyGet f : EStateM ε σ α) :=
  fun s => ⟨(f s).1, (f s).2, rfl, h s⟩

theorem bind {prog : EStateM ε σ α} {next : α → EStateM ε σ β} (hprog : Leaves part prog)
    (hnext : ∀ a, Leaves part (next a)) : Leaves part (prog >>= next) := by
  intro s
  obtain ⟨a, s', hrun, hpart⟩ := hprog s
  obtain ⟨b, s'', hrun', hpart'⟩ := hnext a s'
  exact ⟨b, s'', (run_bind_ok hrun next).trans hrun', hpart'.trans hpart⟩

end Leaves

/-- The program always returns, and keeps the invariant. -/
def Preserves (inv : σ → Prop) (prog : EStateM ε σ α) : Prop :=
  ∀ s, inv s → ∃ a s', prog s = .ok a s' ∧ inv s'

namespace Preserves
variable {inv : σ → Prop}

theorem pure (a : α) : Preserves inv (Pure.pure a : EStateM ε σ α) := fun s h => ⟨a, s, rfl, h⟩

theorem modifyGet {f : σ → α × σ} (h : ∀ s, inv s → inv (f s).2) :
    Preserves inv (MonadState.modifyGet f : EStateM ε σ α) :=
  fun s hs => ⟨(f s).1, (f s).2, rfl, h s hs⟩

theorem bind {prog : EStateM ε σ α} {next : α → EStateM ε σ β} (hprog : Preserves inv prog)
    (hnext : ∀ a, Preserves inv (next a)) : Preserves inv (prog >>= next) := by
  intro s hs
  obtain ⟨a, s', hrun, hs'⟩ := hprog s hs
  obtain ⟨b, s'', hrun', hs''⟩ := hnext a s' hs'
  exact ⟨b, s'', (run_bind_ok hrun next).trans hrun', hs''⟩

/-- An invariant of a part holds as long as the part is left as it is. -/
theorem of_leaves {τ : Type} {part : σ → τ} {P : τ → Prop} {prog : EStateM ε σ α}
    (h : Leaves part prog) : Preserves (fun s => P (part s)) prog := by
  intro s hs
  obtain ⟨a, s', hrun, hpart⟩ := h s
  refine ⟨a, s', hrun, ?_⟩
  dsimp only at hs ⊢
  rwa [hpart]

end Preserves

/-- The program makes the calls in their order, up to the first that fails, and fails with it. -/
def Fails {κ : Type} (failure : κ → Option ε) (calls : List κ) (prog : EStateM ε σ α) : Prop :=
  ∀ s, match prog s with
    | .ok _ _ => calls.findSome? failure = none
    | .error e _ => calls.findSome? failure = some e

namespace Fails
variable {κ : Type} {failure : κ → Option ε}

theorem pure (a : α) : Fails failure [] (Pure.pure a : EStateM ε σ α) := fun _ => rfl

theorem modifyGet (f : σ → α × σ) :
    Fails failure [] (MonadState.modifyGet f : EStateM ε σ α) := fun _ => rfl

theorem get : Fails failure [] (MonadState.get : EStateM ε σ σ) := fun _ => rfl

theorem bind {calls calls' : List κ} {prog : EStateM ε σ α} {next : α → EStateM ε σ β}
    (hprog : Fails failure calls prog) (hnext : ∀ a, Fails failure calls' (next a)) :
    Fails failure (calls ++ calls') (prog >>= next) := by
  intro s
  have h := hprog s
  rw [List.findSome?_append]
  cases hp : prog s with
  | ok a s' =>
    rw [hp] at h
    rw [run_bind_ok hp, h, Option.none_or]
    exact hnext a s'
  | error e s' =>
    rw [hp] at h
    rw [run_bind_error hp, h]
    rfl

/-- A first program that makes no call. -/
theorem bind_silent {calls : List κ} {prog : EStateM ε σ α} {next : α → EStateM ε σ β}
    (hprog : Fails failure [] prog) (hnext : ∀ a, Fails failure calls (next a)) :
    Fails failure calls (prog >>= next) := hprog.bind hnext

/-- A call, and what is done with its answer. -/
theorem call {calls : List κ} {c : κ} {answer : Except ε α} {a : α}
    (hanswer : answer = match failure c with | some e => .error e | none => .ok a)
    {next : α → EStateM ε σ β} (hnext : Fails failure calls (next a)) :
    Fails failure (c :: calls) (liftExcept answer >>= next) := by
  intro s
  rw [List.findSome?_cons, hanswer]
  cases failure c with
  | some e => exact rfl
  | none => exact hnext s

theorem forM {calls : β → List κ} {body : β → EStateM ε σ PUnit}
    (hbody : ∀ b, Fails failure (calls b) (body b)) (bs : List β) :
    Fails failure (bs.flatMap calls) (ForM.forM bs body) := by
  induction bs with
  | nil => exact pure PUnit.unit
  | cons b bs ih =>
    rw [List.forM_cons, List.flatMap_cons]
    exact (hbody b).bind fun _ => ih

theorem forM_silent {body : β → EStateM ε σ PUnit} (hbody : ∀ b, Fails failure [] (body b))
    (bs : List β) : Fails failure [] (ForM.forM bs body) := by
  have h := forM hbody bs
  rwa [List.flatMap_eq_nil_iff.mpr fun _ _ => rfl] at h

end Fails

/-- A result with another state in the place of its own. -/
def mapState (f : σ → σ) : EStateM.Result ε σ α → EStateM.Result ε σ α
  | .ok a s => .ok a (f s)
  | .error e s => .error e (f s)

/-- Two sequences from two states, whose parts do the same up to `f`. -/
theorem mapState_bind {f : σ → σ} {prog prog' : EStateM ε σ α} {next next' : α → EStateM ε σ β}
    {s t : σ} (h : mapState f (prog s) = mapState f (prog' t))
    (hnext : ∀ a s' t', prog s = .ok a s' → prog' t = .ok a t' → f s' = f t' →
      mapState f (next a s') = mapState f (next' a t')) :
    mapState f ((prog >>= next) s) = mapState f ((prog' >>= next') t) := by
  cases hs : prog s with
  | ok a s' =>
    cases ht : prog' t with
    | ok a' t' =>
      rw [hs, ht] at h
      injection h with ha hst
      subst ha
      rw [run_bind_ok hs, run_bind_ok ht]
      exact hnext a s' t' hs ht hst
    | error e t' =>
      rw [hs, ht] at h
      cases h
  | error e s' =>
    cases ht : prog' t with
    | ok a t' =>
      rw [hs, ht] at h
      cases h
    | error e' t' =>
      rw [hs, ht] at h
      injection h with he hst
      subst he
      rw [run_bind_error hs, run_bind_error ht]
      exact congrArg (EStateM.Result.error e) hst

/-- From the image of a state the program does what it does from the state. -/
def Commutes (f : σ → σ) (prog : EStateM ε σ α) : Prop := ∀ s, prog (f s) = mapState f (prog s)

namespace Commutes
variable {f : σ → σ}

theorem pure (a : α) : Commutes f (Pure.pure a : EStateM ε σ α) := fun _ => rfl

theorem throw (e : ε) : Commutes f (MonadExcept.throw e : EStateM ε σ α) := fun _ => rfl

theorem modifyGet {g : σ → α × σ} (h : ∀ s, g (f s) = ((g s).1, f (g s).2)) :
    Commutes f (MonadState.modifyGet g : EStateM ε σ α) := by
  intro s
  change EStateM.Result.ok (g (f s)).1 (g (f s)).2 = .ok (g s).1 (f (g s).2)
  rw [h]

theorem bind {prog : EStateM ε σ α} {next : α → EStateM ε σ β} (hprog : Commutes f prog)
    (hnext : ∀ a, Commutes f (next a)) : Commutes f (prog >>= next) := by
  intro s
  have h := hprog s
  cases hp : prog s with
  | ok a s' =>
    rw [hp] at h
    rw [run_bind_ok hp, run_bind_ok h, hnext a s']
  | error e s' =>
    rw [hp] at h
    rw [run_bind_error hp, run_bind_error h]
    rfl

theorem map {prog : EStateM ε σ α} (hprog : Commutes f prog) (g : α → β) :
    Commutes f (g <$> prog) := by
  rw [map_eq_pure_bind]
  exact hprog.bind fun a => pure (g a)

end Commutes
end StateProgram
end DatafusionPostgres.Library
