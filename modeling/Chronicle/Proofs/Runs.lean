import Mathlib.Tactic.Common
import Chronicle.Resolve.Merge

/-!
# Runs of stateful operations

`Runs x s a s'` says that an operation run in the state `s` gives `a` and leaves the state
`s'`; `Resolves` says the same of a step of a resolver, which also carries an entity. Each way
of putting operations together has one equation here, so that a run of a composed operation is
taken apart from the outside in.
-/

namespace Chronicle

variable {σ α β ε : Type}

/-- Run in the state `s`, the operation gives `a` and leaves the state `s'`. -/
def Runs (x : StateM σ α) (s : σ) (a : α) (s' : σ) : Prop := x.run s = (a, s')

namespace Runs

theorem total (x : StateM σ α) (s : σ) : ∃ a s', Runs x s a s' :=
  ⟨(x.run s).1, (x.run s).2, rfl⟩

theorem run_eq {x : StateM σ α} {s s' : σ} {a : α} (h : Runs x s a s') : x.run s = (a, s') := h

theorem unique {x : StateM σ α} {s t u : σ} {a b : α} (h : Runs x s a t) (h' : Runs x s b u) :
    a = b ∧ t = u :=
  Prod.mk.inj (h.symm.trans h')

end Runs

@[simp] theorem runs_pure {a b : α} {s s' : σ} :
    Runs (pure a) s b s' ↔ b = a ∧ s' = s := by
  constructor
  · intro h
    cases h
    exact ⟨rfl, rfl⟩
  · rintro ⟨rfl, rfl⟩
    rfl

theorem runs_bind {x : StateM σ α} {f : α → StateM σ β} {s s' : σ} {b : β} :
    Runs (x >>= f) s b s' ↔ ∃ a t, Runs x s a t ∧ Runs (f a) t b s' := by
  constructor
  · intro h
    exact ⟨(x.run s).1, (x.run s).2, rfl, h⟩
  · rintro ⟨a, t, hx, hf⟩
    have e : (x >>= f).run s = (f (x.run s).1).run (x.run s).2 := rfl
    rw [Runs, e, show x.run s = (a, t) from hx]
    exact hf

theorem runs_bind_pure {x : StateM σ α} {f : α → β} {s s' : σ} {b : β} :
    Runs (x >>= fun a => pure (f a)) s b s' ↔ ∃ a, Runs x s a s' ∧ b = f a := by
  rw [runs_bind]
  constructor
  · rintro ⟨a, t, hx, hp⟩
    obtain ⟨rfl, rfl⟩ := runs_pure.1 hp
    exact ⟨a, hx, rfl⟩
  · rintro ⟨a, hx, rfl⟩
    exact ⟨a, s', hx, runs_pure.2 ⟨rfl, rfl⟩⟩

theorem runs_map {x : StateM σ α} {f : α → β} {s s' : σ} {b : β} :
    Runs (f <$> x) s b s' ↔ ∃ a, Runs x s a s' ∧ b = f a := by
  rw [map_eq_pure_bind, runs_bind_pure]

theorem runs_discard {x : StateM σ α} {s s' : σ} {b : PUnit} :
    Runs (discard x) s b s' ↔ ∃ a, Runs x s a s' := by
  rw [Functor.discard, map_const, Function.comp_apply, runs_map]
  simp

@[simp] theorem runs_get {s s' a : σ} : Runs (get : StateM σ σ) s a s' ↔ a = s ∧ s' = s := by
  constructor
  · intro h
    cases h
    exact ⟨rfl, rfl⟩
  · rintro ⟨rfl, rfl⟩
    rfl

@[simp] theorem runs_set {s s' t : σ} {a : PUnit} :
    Runs (set t : StateM σ PUnit) s a s' ↔ s' = t := by
  constructor
  · intro h
    cases h
    rfl
  · rintro rfl
    rfl

section Failing

theorem except_map_eq_ok {f : α → β} {r : Except ε α} {b : β} :
    r.map f = .ok b ↔ ∃ a, r = .ok a ∧ b = f a := by
  cases r <;> simp [Except.map, eq_comm]

theorem except_mapError_eq_ok {δ : Type} {f : ε → δ} {r : Except ε α} {a : α} :
    r.mapError f = .ok a ↔ r = .ok a := by
  cases r <;> simp [Except.mapError]

theorem except_toOption_eq_some {r : Except ε α} {a : α} : r.toOption = some a ↔ r = .ok a := by
  cases r <;> simp [Except.toOption]

variable {x : ExceptT ε (StateM σ) α} {f : α → ExceptT ε (StateM σ) β} {s s' : σ}

@[simp] theorem runs_except_pure {a : α} {r : Except ε α} :
    Runs (pure a : ExceptT ε (StateM σ) α).run s r s' ↔ r = .ok a ∧ s' = s :=
  runs_pure

@[simp] theorem runs_throw {err : ε} {r : Except ε α} :
    Runs (throw err : ExceptT ε (StateM σ) α).run s r s' ↔ r = .error err ∧ s' = s :=
  runs_pure

theorem runs_except_bind {r : Except ε β} :
    Runs (x >>= f).run s r s' ↔
      (∃ err, Runs x.run s (.error err) s' ∧ r = .error err) ∨
        ∃ a t, Runs x.run s (.ok a) t ∧ Runs (f a).run t r s' := by
  have e : (x >>= f).run = x.run >>= ExceptT.bindCont f := rfl
  rw [e, runs_bind]
  constructor
  · rintro ⟨a, t, hx, hf⟩
    cases a with
    | error err =>
      obtain ⟨rfl, rfl⟩ := runs_pure.1 hf
      exact .inl ⟨err, hx, rfl⟩
    | ok a => exact .inr ⟨a, t, hx, hf⟩
  · rintro (⟨err, hx, rfl⟩ | ⟨a, t, hx, hf⟩)
    · exact ⟨.error err, s', hx, runs_pure.2 ⟨rfl, rfl⟩⟩
    · exact ⟨.ok a, t, hx, hf⟩

theorem runs_except_monadLift {y : StateM σ α} {r : Except ε α} :
    Runs (liftM y : ExceptT ε (StateM σ) α).run s r s' ↔ ∃ a, Runs y s a s' ∧ r = .ok a :=
  runs_map

theorem runs_except_monadLift_bind {y : StateM σ α} {r : Except ε β} :
    Runs ((liftM y : ExceptT ε (StateM σ) α) >>= f).run s r s' ↔
      ∃ a t, Runs y s a t ∧ Runs (f a).run t r s' := by
  rw [runs_except_bind]
  constructor
  · rintro (⟨err, hy, _⟩ | ⟨a, t, hy, hf⟩)
    · obtain ⟨_, _, he⟩ := runs_except_monadLift.1 hy
      cases he
    · obtain ⟨_, hy, he⟩ := runs_except_monadLift.1 hy
      cases he
      exact ⟨a, t, hy, hf⟩
  · rintro ⟨a, t, hy, hf⟩
    exact .inr ⟨a, t, runs_except_monadLift.2 ⟨a, hy, rfl⟩, hf⟩

theorem runs_except_lift_bind {y : StateM σ α} {r : Except ε β} :
    Runs (ExceptT.lift y >>= f).run s r s' ↔
      ∃ a t, Runs y s a t ∧ Runs (f a).run t r s' :=
  runs_except_monadLift_bind

theorem runs_except_discard {r : Except ε PUnit} :
    Runs (discard x).run s r s' ↔ ∃ a, Runs x.run s a s' ∧ r = a.map fun _ => ⟨⟩ := by
  have e : (discard x).run = (Except.map fun _ => PUnit.unit) <$> x.run := by
    rw [Functor.discard, map_const, Function.comp_apply]
    exact ExceptT.run_map _ _
  rw [e, runs_map]

theorem runs_except_discard_bind {g : PUnit → ExceptT ε (StateM σ) β} {r : Except ε β} :
    Runs (discard x >>= g).run s r s' ↔
      (∃ err, Runs x.run s (.error err) s' ∧ r = .error err) ∨
        ∃ a t, Runs x.run s (.ok a) t ∧ Runs (g ⟨⟩).run t r s' := by
  rw [runs_except_bind]
  constructor
  · rintro (⟨err, hx, rfl⟩ | ⟨_, t, hx, hg⟩)
    · obtain ⟨a, ha, he⟩ := runs_except_discard.1 hx
      cases a with
      | error err' =>
        cases he
        exact .inl ⟨_, ha, rfl⟩
      | ok a => cases he
    · obtain ⟨a, ha, he⟩ := runs_except_discard.1 hx
      cases a with
      | error err => cases he
      | ok a => exact .inr ⟨a, t, ha, hg⟩
  · rintro (⟨err, hx, rfl⟩ | ⟨a, t, hx, hg⟩)
    · exact .inl ⟨err, runs_except_discard.2 ⟨_, hx, rfl⟩, rfl⟩
    · exact .inr ⟨⟨⟩, t, runs_except_discard.2 ⟨_, hx, rfl⟩, hg⟩

end Failing

/-- Run on the entity `e` in the state `s`, the step ends in `r` and leaves the entity `e'`
and the state `s'`. -/
def Resolves {S : Type} (x : Resolving (StateM σ) S α) (e : Entity S) (s : σ)
    (r : Except ResolveError α) (e' : Entity S) (s' : σ) : Prop :=
  Runs (x.run.run e) s (r, e') s'

section Resolving

variable {S : Type} {x : Resolving (StateM σ) S α} {f : α → Resolving (StateM σ) S β}
  {e e' : Entity S} {s s' : σ}

@[simp] theorem resolves_pure {a : α} {r : Except ResolveError α} :
    Resolves (pure a) e s r e' s' ↔ r = .ok a ∧ e' = e ∧ s' = s := by
  rw [Resolves]
  change Runs (pure (Except.ok a, e)) s (r, e') s' ↔ _
  simp [and_assoc]

@[simp] theorem resolves_throw {err : ResolveError} {r : Except ResolveError α} :
    Resolves (throw err) e s r e' s' ↔ r = .error err ∧ e' = e ∧ s' = s := by
  rw [Resolves]
  change Runs (pure (Except.error err, e)) s (r, e') s' ↔ _
  simp [and_assoc]

@[simp] theorem resolves_lift {a r : Except ResolveError α} :
    Resolves (liftM a : Resolving (StateM σ) S α) e s r e' s' ↔ r = a ∧ e' = e ∧ s' = s := by
  cases a with
  | ok a => exact resolves_pure
  | error err => exact resolves_throw

theorem resolves_bind {r : Except ResolveError β} :
    Resolves (x >>= f) e s r e' s' ↔
      (∃ err, Resolves x e s (.error err) e' s' ∧ r = .error err) ∨
        ∃ a d t, Resolves x e s (.ok a) d t ∧ Resolves (f a) d t r e' s' := by
  have h : (x >>= f).run.run e =
      x.run.run e >>= fun p => (ExceptT.bindCont f p.1).run p.2 := rfl
  rw [Resolves, h, runs_bind]
  constructor
  · rintro ⟨⟨a, d⟩, t, hx, hf⟩
    cases a with
    | error err =>
      have hp : Runs (pure (Except.error err, d)) t (r, e') s' := hf
      obtain ⟨hr, rfl⟩ := runs_pure.1 hp
      cases hr
      exact .inl ⟨err, hx, rfl⟩
    | ok a => exact .inr ⟨a, d, t, hx, hf⟩
  · rintro (⟨err, hx, rfl⟩ | ⟨a, d, t, hx, hf⟩)
    · exact ⟨(.error err, e'), s', hx, runs_pure.2 ⟨rfl, rfl⟩⟩
    · exact ⟨(.ok a, d), t, hx, hf⟩

@[simp] theorem resolves_ask {y : StateM σ α} {r : Except ResolveError α} :
    Resolves (Resolving.ask y) e s r e' s' ↔ ∃ a, Runs y s a s' ∧ r = .ok a ∧ e' = e := by
  have h : (Resolving.ask y : Resolving (StateM σ) S α).run.run e =
      y >>= fun a => pure (Except.ok a, e) := rfl
  rw [Resolves, h, runs_bind_pure]
  simp

@[simp] theorem resolves_store {y : StateM σ (Except StoreError α)}
    {r : Except ResolveError α} :
    Resolves (Resolving.store y) e s r e' s' ↔
      ∃ a, Runs y s a s' ∧ r = a.mapError .ofStore ∧ e' = e := by
  have h : (Resolving.store y : Resolving (StateM σ) S α).run.run e =
      y >>= fun a => pure (a.mapError .ofStore, e) := rfl
  rw [Resolves, h, runs_bind_pure]
  simp

@[simp] theorem resolves_staging {y : StateM σ (Except String α)} {r : Except ResolveError α} :
    Resolves (Resolving.staging y) e s r e' s' ↔
      ∃ a, Runs y s a s' ∧ r = a.mapError .channel ∧ e' = e := by
  have h : (Resolving.staging y : Resolving (StateM σ) S α).run.run e =
      y >>= fun a => pure (a.mapError .channel, e) := rfl
  rw [Resolves, h, runs_bind_pure]
  simp

@[simp] theorem resolves_outcome {r : Except ResolveError (Except ResolveError α)} :
    Resolves x.outcome e s r e' s' ↔ ∃ a, Resolves x e s a e' s' ∧ r = .ok a := by
  have h : x.outcome.run.run e = x.run.run e >>= fun p => pure (Except.ok p.1, p.2) := rfl
  rw [Resolves, h, runs_bind_pure]
  constructor
  · rintro ⟨⟨a, d⟩, hx, hp⟩
    cases hp
    exact ⟨a, hx, rfl⟩
  · rintro ⟨a, hx, rfl⟩
    exact ⟨(a, e'), hx, rfl⟩

@[simp] theorem resolves_entity {r : Except ResolveError (Entity S)} :
    Resolves (σ := σ) Resolving.entity e s r e' s' ↔ r = .ok e ∧ e' = e ∧ s' = s := by
  rw [Resolves]
  change Runs (pure (Except.ok e, e)) s (r, e') s' ↔ _
  simp [and_assoc]

@[simp] theorem resolves_setEntity {d : Entity S} {r : Except ResolveError Unit} :
    Resolves (σ := σ) (Resolving.setEntity d) e s r e' s' ↔ r = .ok () ∧ e' = d ∧ s' = s := by
  rw [Resolves]
  change Runs (pure (Except.ok (), d)) s (r, e') s' ↔ _
  simp [and_assoc]

theorem resolves_discard {r : Except ResolveError PUnit} :
    Resolves (discard x) e s r e' s' ↔
      ∃ a, Resolves x e s a e' s' ∧ r = a.map fun _ => ⟨⟩ := by
  have h : (discard x).run.run e =
      (fun p => (p.1.map fun _ => PUnit.unit, p.2)) <$> x.run.run e := by
    rw [Functor.discard, map_const, Function.comp_apply, ExceptT.run_map, StateT.run_map]
  rw [Resolves, h, runs_map]
  constructor
  · rintro ⟨⟨a, d⟩, hx, hp⟩
    cases hp
    exact ⟨a, hx, rfl⟩
  · rintro ⟨a, hx, rfl⟩
    exact ⟨(a, e'), hx, rfl⟩

@[simp] theorem resolves_ask_bind {γ : Type} {y : StateM σ γ}
    {g : γ → Resolving (StateM σ) S β} {r : Except ResolveError β} :
    Resolves (Resolving.ask y >>= g) e s r e' s' ↔
      ∃ a t, Runs y s a t ∧ Resolves (g a) e t r e' s' := by
  simp only [resolves_bind, resolves_ask]
  constructor
  · rintro (⟨_, ⟨_, _, ha, _⟩, _⟩ | ⟨a, d, t, ⟨_, hy, ha, rfl⟩, hg⟩)
    · cases ha
    · cases ha
      exact ⟨a, t, hy, hg⟩
  · rintro ⟨a, t, hy, hg⟩
    exact .inr ⟨a, e, t, ⟨a, hy, rfl, rfl⟩, hg⟩

@[simp] theorem resolves_entity_bind {g : Entity S → Resolving (StateM σ) S β}
    {r : Except ResolveError β} :
    Resolves (Resolving.entity >>= g) e s r e' s' ↔ Resolves (g e) e s r e' s' := by
  simp only [resolves_bind, resolves_entity, reduceCtorEq, false_and, exists_false, false_or,
    Except.ok.injEq, and_assoc, exists_and_left, exists_eq_left]

@[simp] theorem resolves_setEntity_bind {d : Entity S} {g : Unit → Resolving (StateM σ) S β}
    {r : Except ResolveError β} :
    Resolves (Resolving.setEntity d >>= g) e s r e' s' ↔ Resolves (g ()) d s r e' s' := by
  simp only [resolves_bind, resolves_setEntity, reduceCtorEq, false_and, exists_false, false_or]
  constructor
  · rintro ⟨_, _, _, ⟨_, rfl, rfl⟩, hg⟩
    exact hg
  · intro hg
    exact ⟨(), d, s, ⟨trivial, rfl, rfl⟩, hg⟩

theorem resolves_store_bind {γ : Type} {y : StateM σ (Except StoreError γ)}
    {g : γ → Resolving (StateM σ) S β} {r : Except ResolveError β} :
    Resolves (Resolving.store y >>= g) e s r e' s' ↔
      (∃ err, Runs y s (.error err) s' ∧ r = .error (.ofStore err) ∧ e' = e) ∨
        ∃ a t, Runs y s (.ok a) t ∧ Resolves (g a) e t r e' s' := by
  simp only [resolves_bind, resolves_store]
  constructor
  · rintro (⟨_, ⟨a, hy, ha, rfl⟩, rfl⟩ | ⟨b, _, t, ⟨a, hy, ha, rfl⟩, hg⟩)
    · cases a with
      | error err =>
        cases ha
        exact .inl ⟨err, hy, rfl, rfl⟩
      | ok a => cases ha
    · cases a with
      | error err => cases ha
      | ok a =>
        cases ha
        exact .inr ⟨b, t, hy, hg⟩
  · rintro (⟨err, hy, rfl, rfl⟩ | ⟨a, t, hy, hg⟩)
    · exact .inl ⟨_, ⟨_, hy, rfl, rfl⟩, rfl⟩
    · exact .inr ⟨a, e, t, ⟨_, hy, rfl, rfl⟩, hg⟩

theorem resolves_discard_bind {g : PUnit → Resolving (StateM σ) S β} {r : Except ResolveError β} :
    Resolves (discard x >>= g) e s r e' s' ↔
      (∃ err, Resolves x e s (.error err) e' s' ∧ r = .error err) ∨
        ∃ a d t, Resolves x e s (.ok a) d t ∧ Resolves (g ⟨⟩) d t r e' s' := by
  simp only [resolves_bind, resolves_discard]
  constructor
  · rintro (⟨_, ⟨a, hx, ha⟩, rfl⟩ | ⟨_, d, t, ⟨a, hx, ha⟩, hg⟩)
    · cases a with
      | error err =>
        cases ha
        exact .inl ⟨_, hx, rfl⟩
      | ok a => cases ha
    · cases a with
      | error err => cases ha
      | ok a => exact .inr ⟨a, d, t, hx, hg⟩
  · rintro (⟨err, hx, rfl⟩ | ⟨a, d, t, hx, hg⟩)
    · exact .inl ⟨err, ⟨_, hx, rfl⟩, rfl⟩
    · exact .inr ⟨⟨⟩, d, t, ⟨_, hx, rfl⟩, hg⟩

theorem resolves_discard_store_bind {γ : Type} {y : StateM σ (Except StoreError γ)}
    {g : PUnit → Resolving (StateM σ) S β} {r : Except ResolveError β} :
    Resolves (discard (Resolving.store y) >>= g) e s r e' s' ↔
      (∃ err, Runs y s (.error err) s' ∧ r = .error (.ofStore err) ∧ e' = e) ∨
        ∃ a t, Runs y s (.ok a) t ∧ Resolves (g ⟨⟩) e t r e' s' := by
  have hforget : Resolves (discard (Resolving.store y) >>= g) e s r e' s' ↔
      Resolves (Resolving.store y >>= fun _ => g ⟨⟩) e s r e' s' :=
    resolves_discard_bind.trans resolves_bind.symm
  exact hforget.trans resolves_store_bind

theorem resolves_staging_bind {γ : Type} {y : StateM σ (Except String γ)}
    {g : γ → Resolving (StateM σ) S β} {r : Except ResolveError β}
    (hy : ∀ a t, Runs y s a t → ∃ v, a = .ok v) :
    Resolves (Resolving.staging y >>= g) e s r e' s' ↔
      ∃ a t, Runs y s (.ok a) t ∧ Resolves (g a) e t r e' s' := by
  simp only [resolves_bind, resolves_staging]
  constructor
  · rintro (⟨_, ⟨a, ha, he, _⟩, _⟩ | ⟨b, _, t, ⟨a, ha, he, rfl⟩, hg⟩)
    · obtain ⟨v, rfl⟩ := hy a _ ha
      cases he
    · obtain ⟨v, rfl⟩ := hy a _ ha
      cases he
      exact ⟨b, t, ha, hg⟩
  · rintro ⟨a, t, ha, hg⟩
    exact .inr ⟨a, e, t, ⟨_, ha, rfl, rfl⟩, hg⟩

theorem resolves_outcome_bind {g : Except ResolveError α → Resolving (StateM σ) S β}
    {r : Except ResolveError β} :
    Resolves (x.outcome >>= g) e s r e' s' ↔
      ∃ a d t, Resolves x e s a d t ∧ Resolves (g a) d t r e' s' := by
  simp only [resolves_bind, resolves_outcome]
  constructor
  · rintro (⟨_, ⟨_, _, ha⟩, _⟩ | ⟨b, d, t, ⟨a, hx, ha⟩, hg⟩)
    · cases ha
    · cases ha
      exact ⟨b, d, t, hx, hg⟩
  · rintro ⟨a, d, t, hx, hg⟩
    exact .inr ⟨a, d, t, ⟨a, hx, rfl⟩, hg⟩

end Resolving

end Chronicle
