import Chronicle.Proofs.Nameless

/-!
# Two runs side by side

Two worlds are near for a stream if they hold the same for it, but for the names of events and
commits. A twin run starts two programs in near worlds: what they answer is alike, the worlds are
near again, and the first program has changed nothing that does not belong to the stream. Twins are
put together along the programs, and each request of a node for a stream is its own twin.
-/

namespace Chronicle

variable {S : Type}

namespace World

/-- The worlds hold the same for a stream, but for the names of events and commits. A cached
timeline is one of a stream with the same keys. -/
structure Near (r : StreamRef) (w w' : World) : Prop where
  events : ∀ key, r.Owns key →
    (w.log.events key).map Event.nameless = (w'.log.events key).map Event.nameless
  metadata : w.log.metadataOf (r.key .domain) = w'.log.metadataOf (r.key .domain)
  cached : ∀ c, ((w.cache c)[r.key .domain]?).map Timeline.nameless =
    ((w'.cache c)[r.key .domain]?).map Timeline.nameless
  filed : ∀ c, ∀ t ∈ (w.cache c)[r.key .domain]?, t.key .domain = r.key .domain
  queue : ∀ a, w.queue a (r.key .domain) = w'.queue a (r.key .domain)
  due : ∀ a (item : StreamRef), item.key .domain = r.key .domain →
    (w.agenda a).dueTime item = (w'.agenda a).dueTime item
  wall : w.wall = w'.wall
  elapsed : w.elapsed = w'.elapsed

/-- Nothing has changed that does not belong to one of the streams. -/
structure Confined (streams : List StreamRef) (w u : World) : Prop where
  events : ∀ key, (∀ s ∈ streams, ¬ s.Owns key) → u.log.events key = w.log.events key
  metadata : ∀ key, (∀ s ∈ streams, s.key .domain ≠ key) →
    u.log.metadataOf key = w.log.metadataOf key
  cached : ∀ c key, (∀ s ∈ streams, s.key .domain ≠ key) → (u.cache c)[key]? = (w.cache c)[key]?
  groups : ∀ a g, (∀ s ∈ streams, ⟨weakChannel, s.key .domain⟩ ≠ g) →
    (u.area a).group g = (w.area a).group g
  due : ∀ a (item : StreamRef), (∀ s ∈ streams, s.key .domain ≠ item.key .domain) →
    (u.agenda a).dueTime item = (w.agenda a).dueTime item
  wall : u.wall = w.wall
  elapsed : u.elapsed = w.elapsed

variable {r : StreamRef} {w w' u u' v : World} {t t' : Timeline}

namespace Near

theorem issued (h : w.Near r w') (i j : Nat) :
    (w.logged i w.log).Near r (w'.logged j w'.log) :=
  { h with }

theorem version (h : w.Near r w') {key : String} (howns : r.Owns key) :
    w.log.version key = w'.log.version key :=
  EventLog.version_congr_nameless (h.events key howns)

theorem appended (h : w.Near r w') {key : String} (howns : r.Owns key)
    {events events' : NonEmptyList Event}
    (hevents : events.1.map Event.nameless = events'.1.map Event.nameless)
    {headers headers' : Headers}
    (hheaders : headers.erase Headers.commitId = headers'.erase Headers.commitId)
    (i j : Nat) (ids ids' : List Uuid) :
    (w.logged i (w.log.append key events headers ids w.wall).2).Near r
      (w'.logged j (w'.log.append key events' headers' ids' w'.wall).2) :=
  { h with
    events other hother := by
      by_cases hk : other = key
      · subst hk
        rw [log_logged, log_logged, EventLog.events_append_self, EventLog.events_append_self,
          List.map_append, List.map_append, h.events other howns, h.version howns, h.wall,
          EventLog.map_nameless_stamped hevents hheaders]
      · rw [log_logged, log_logged, EventLog.events_append_of_ne _ hk,
          EventLog.events_append_of_ne _ hk, h.events other hother] }

theorem claimed (h : w.Near r w') (frozen : Option Freeze) :
    (w.claimed (r.key .domain) frozen).Near r (w'.claimed (r.key .domain) frozen) :=
  { h with
    metadata := by
      rw [metadataOf_claimed, metadataOf_claimed, if_pos rfl, if_pos rfl, h.metadata] }

theorem remember (h : w.Near r w') (c : Nat) (ht : t.Akin r t') :
    (w.remember c (r.key .domain) t).Near r (w'.remember c (r.key .domain) t') :=
  { h with
    cached d := by
      rw [getElem?_cache_remember, getElem?_cache_remember]
      split
      · rw [Option.map_some, Option.map_some, ht.same]
      · exact h.cached d
    filed d s hs := by
      rw [getElem?_cache_remember] at hs
      split at hs
      · rw [← Option.mem_some.1 hs]
        exact ht.key
      · exact h.filed d s hs }

theorem forget (h : w.Near r w') (c : Nat) :
    (w.forget c (r.key .domain)).Near r (w'.forget c (r.key .domain)) :=
  { h with
    cached d := by
      rw [getElem?_cache_forget, getElem?_cache_forget]
      split
      · rfl
      · exact h.cached d
    filed d s hs := by
      rw [getElem?_cache_forget] at hs
      split at hs
      · cases hs
      · exact h.filed d s hs }

theorem restaged (h : w.Near r w') (a : Nat) (messages : List (Staged ConflictBatch)) :
    (w.restaged a (r.key .domain) messages).Near r (w'.restaged a (r.key .domain) messages) :=
  { h with
    queue b := by
      by_cases hb : b = a
      · rw [hb, queue_restaged, queue_restaged]
      · rw [World.queue, area_restaged, if_neg hb, World.queue, area_restaged, if_neg hb]
        exact h.queue b }

theorem scheduled (h : w.Near r w') (a : Nat) {stream : StreamRef}
    (hkey : stream.key .domain = r.key .domain) (delay : Span) :
    (w.scheduled a stream delay).Near r (w'.scheduled a stream delay) :=
  { h with
    due b item hitem := by
      rw [agenda_scheduled, agenda_scheduled]
      split
      · by_cases hi : item = stream
        · rw [hi, Agenda.dueTime_schedule_self, Agenda.dueTime_schedule_self, h.due a _ hkey,
            h.elapsed]
        · rw [Agenda.dueTime_schedule_of_ne _ hi, Agenda.dueTime_schedule_of_ne _ hi,
            h.due a _ hitem]
      · exact h.due b item hitem }

end Near

namespace Confined

variable {streams streams' : List StreamRef}

theorem refl (streams : List StreamRef) (w : World) : w.Confined streams w :=
  ⟨fun _ _ => rfl, fun _ _ => rfl, fun _ _ _ => rfl, fun _ _ _ => rfl, fun _ _ _ => rfl, rfl, rfl⟩

theorem trans (h : w.Confined streams u) (h' : u.Confined streams v) : w.Confined streams v where
  events key hk := (h'.events key hk).trans (h.events key hk)
  metadata key hk := (h'.metadata key hk).trans (h.metadata key hk)
  cached c key hk := (h'.cached c key hk).trans (h.cached c key hk)
  groups a g hg := (h'.groups a g hg).trans (h.groups a g hg)
  due a item hi := (h'.due a item hi).trans (h.due a item hi)
  wall := h'.wall.trans h.wall
  elapsed := h'.elapsed.trans h.elapsed

theorem mono (h : w.Confined streams u) (hsub : streams ⊆ streams') : w.Confined streams' u where
  events key hk := h.events key fun s hs => hk s (hsub hs)
  metadata key hk := h.metadata key fun s hs => hk s (hsub hs)
  cached c key hk := h.cached c key fun s hs => hk s (hsub hs)
  groups a g hg := h.groups a g fun s hs => hg s (hsub hs)
  due a item hi := h.due a item fun s hs => hi s (hsub hs)
  wall := h.wall
  elapsed := h.elapsed

section Requests

variable (r : StreamRef)

theorem issued (w : World) (i : Nat) : w.Confined [r] (w.logged i w.log) :=
  { refl [r] w with }

theorem appended {key : String} (howns : r.Owns key) (w : World) (i : Nat)
    (events : NonEmptyList Event) (headers : Headers) (ids : List Uuid) (time : Moment) :
    w.Confined [r] (w.logged i (w.log.append key events headers ids time).2) :=
  { refl [r] w with
    events other hother := by
      have hne : other ≠ key := fun hk => hother r (List.mem_singleton_self r) (by rwa [hk])
      exact EventLog.events_append_of_ne _ hne .. }

theorem claimed (w : World) (frozen : Option Freeze) :
    w.Confined [r] (w.claimed (r.key .domain) frozen) :=
  { refl [r] w with
    metadata key hk := by
      rw [metadataOf_claimed, if_neg (hk r (List.mem_singleton_self r)).symm] }

theorem remember (w : World) (c : Nat) (t : Timeline) :
    w.Confined [r] (w.remember c (r.key .domain) t) :=
  { refl [r] w with
    cached d key hk := by
      rw [getElem?_cache_remember, if_neg fun h => hk r (List.mem_singleton_self r) h.2.symm] }

theorem forget (w : World) (c : Nat) : w.Confined [r] (w.forget c (r.key .domain)) :=
  { refl [r] w with
    cached d key hk := by
      rw [getElem?_cache_forget, if_neg fun h => hk r (List.mem_singleton_self r) h.2.symm] }

theorem restaged (w : World) (a : Nat) (messages : List (Staged ConflictBatch)) :
    w.Confined [r] (w.restaged a (r.key .domain) messages) :=
  { refl [r] w with
    groups b g hg := by
      rw [area_restaged]
      split
      · rename_i hb
        rw [hb, StagingArea.group_setGroup_of_ne _ (hg r (List.mem_singleton_self r)).symm]
      · rfl }

theorem scheduled {stream : StreamRef} (hkey : stream.key .domain = r.key .domain) (w : World)
    (a : Nat) (delay : Span) : w.Confined [r] (w.scheduled a stream delay) :=
  { refl [r] w with
    due b item hitem := by
      rw [agenda_scheduled]
      split
      · rename_i hb
        have hne : item ≠ stream :=
          fun h => hitem r (List.mem_singleton_self r) (by rw [h, hkey])
        rw [hb, Agenda.dueTime_schedule_of_ne _ hne]
      · rfl }

end Requests

end Confined

end World

section Twins

variable {α β γ δ : Type} {r : StreamRef} {p : α → β → Prop} {q q' : γ → δ → Prop}

/-- Run in worlds that are near for a stream, the operations answer alike and leave worlds that are
near again, and the first one changes only what belongs to the stream. -/
def Twin (r : StreamRef) (q : γ → δ → Prop) (x : StateM World γ) (y : StateM World δ) : Prop :=
  ∀ ⦃w w' a b u u'⦄, World.Near r w w' → Runs x w a u → Runs y w' b u' →
    q a b ∧ u.Near r u' ∧ w.Confined [r] u

namespace Twin

theorem pure {a : γ} {b : δ} (h : q a b) : Twin r q (Pure.pure a) (Pure.pure b) := by
  intro w w' _ _ u u' hnear hx hy
  obtain ⟨rfl, rfl⟩ := runs_pure.1 hx
  obtain ⟨rfl, rfl⟩ := runs_pure.1 hy
  exact ⟨h, hnear, .refl ..⟩

theorem bind {x : StateM World α} {y : StateM World β} {f : α → StateM World γ}
    {g : β → StateM World δ} (h : Twin r p x y) (hf : ∀ a b, p a b → Twin r q (f a) (g b)) :
    Twin r q (x >>= f) (y >>= g) := by
  intro w w' c d v v' hnear hx hy
  obtain ⟨a, u, hx, hfx⟩ := runs_bind.1 hx
  obtain ⟨b, u', hy, hgy⟩ := runs_bind.1 hy
  obtain ⟨hab, hmiddle, hfirst⟩ := h hnear hx hy
  obtain ⟨hcd, hend, hsecond⟩ := hf a b hab hmiddle hfx hgy
  exact ⟨hcd, hend, hfirst.trans hsecond⟩

section Failing

variable {ε : Type} {x : ExceptT ε (StateM World) α} {y : ExceptT ε (StateM World) β}
  {f : α → ExceptT ε (StateM World) γ} {g : β → ExceptT ε (StateM World) δ}

theorem except_pure {a : γ} {b : δ} (h : q a b) :
    Twin r (Agree q) (Pure.pure a : ExceptT ε (StateM World) γ).run
      (Pure.pure b : ExceptT ε (StateM World) δ).run := Twin.pure h

theorem except_throw (err : ε) :
    Twin r (Agree q) (throw err : ExceptT ε (StateM World) γ).run
      (throw err : ExceptT ε (StateM World) δ).run := Twin.pure (q := Agree q) rfl

theorem except_bind (h : Twin r (Agree p) x.run y.run)
    (hf : ∀ a b, p a b → Twin r (Agree q) (f a).run (g b).run) :
    Twin r (Agree q) (x >>= f).run (y >>= g).run := by
  refine Twin.bind (f := ExceptT.bindCont f) (g := ExceptT.bindCont g) h fun a b hab => ?_
  cases a <;> cases b
  · exact Twin.pure (q := Agree q) hab
  · cases hab
  · cases hab
  · exact hf _ _ hab

theorem except_discard (h : Twin r (Agree p) x.run y.run) :
    Twin r (Agree Eq) (Functor.discard x).run (Functor.discard y).run := by
  intro w w' _ _ u u' hnear hrun hrun'
  obtain ⟨a, hx, rfl⟩ := runs_except_discard.1 hrun
  obtain ⟨b, hy, rfl⟩ := runs_except_discard.1 hrun'
  obtain ⟨hab, hend⟩ := h hnear hx hy
  exact ⟨hab.discard, hend⟩

theorem lift_bind {x : StateM World α} {y : StateM World β} (h : Twin r p x y)
    (hf : ∀ a b, p a b → Twin r (Agree q) (f a).run (g b).run) :
    Twin r (Agree q) (ExceptT.lift x >>= f).run (ExceptT.lift y >>= g).run := by
  intro w w' c d v v' hnear hx hy
  obtain ⟨a, u, hx, hfx⟩ := runs_except_lift_bind.1 hx
  obtain ⟨b, u', hy, hgy⟩ := runs_except_lift_bind.1 hy
  obtain ⟨hab, hmiddle, hfirst⟩ := h hnear hx hy
  obtain ⟨hcd, hend, hsecond⟩ := hf a b hab hmiddle hfx hgy
  exact ⟨hcd, hend, hfirst.trans hsecond⟩

end Failing

end Twin

/-- Twin runs of two steps of a resolver, on entities that are akin. -/
def TwinStep (S : Type) (r : StreamRef) (q : γ → δ → Prop) (x : Resolving (StateM World) S γ)
    (y : Resolving (StateM World) S δ) : Prop :=
  ∀ ⦃e e' w w' a b d d' u u'⦄, Entity.Akin r e e' → World.Near r w w' → Resolves x e w a d u →
    Resolves y e' w' b d' u' → Agree q a b ∧ d.Akin r d' ∧ u.Near r u' ∧ w.Confined [r] u

namespace TwinStep

theorem pure {a : γ} {b : δ} (h : q a b) : TwinStep S r q (Pure.pure a) (Pure.pure b) := by
  intro e e' w w' _ _ d d' u u' hakin hnear hx hy
  obtain ⟨rfl, rfl, rfl⟩ := resolves_pure.1 hx
  obtain ⟨rfl, rfl, rfl⟩ := resolves_pure.1 hy
  exact ⟨h, hakin, hnear, .refl ..⟩

theorem throw (err : ResolveError) :
    TwinStep S r q (MonadExcept.throw err) (MonadExcept.throw err) := by
  intro e e' w w' _ _ d d' u u' hakin hnear hx hy
  obtain ⟨rfl, rfl, rfl⟩ := resolves_throw.1 hx
  obtain ⟨rfl, rfl, rfl⟩ := resolves_throw.1 hy
  exact ⟨rfl, hakin, hnear, .refl ..⟩

theorem bind {x : Resolving (StateM World) S α} {y : Resolving (StateM World) S β}
    {f : α → Resolving (StateM World) S γ} {g : β → Resolving (StateM World) S δ}
    (h : TwinStep S r p x y) (hf : ∀ a b, p a b → TwinStep S r q (f a) (g b)) :
    TwinStep S r q (x >>= f) (y >>= g) := by
  intro e e' w w' c c' d d' v v' hakin hnear hxf hyg
  rcases resolves_bind.1 hxf with ⟨err, hx, rfl⟩ | ⟨a, i, u, hx, hfx⟩ <;>
    rcases resolves_bind.1 hyg with ⟨err', hy, rfl⟩ | ⟨b, i', u', hy, hgy⟩ <;>
    obtain ⟨hab, hakin, hmiddle, hfirst⟩ := h hakin hnear hx hy
  · exact ⟨hab, hakin, hmiddle, hfirst⟩
  · cases hab
  · cases hab
  · obtain ⟨hcd, hend, hlast, hsecond⟩ := hf a b hab hakin hmiddle hfx hgy
    exact ⟨hcd, hend, hlast, hfirst.trans hsecond⟩

theorem discard {x : Resolving (StateM World) S α} {y : Resolving (StateM World) S β}
    (h : TwinStep S r p x y) : TwinStep S r Eq (Functor.discard x) (Functor.discard y) := by
  intro e e' w w' _ _ d d' u u' hakin hnear hrun hrun'
  obtain ⟨a, hx, rfl⟩ := resolves_discard.1 hrun
  obtain ⟨b, hy, rfl⟩ := resolves_discard.1 hrun'
  obtain ⟨hab, hend⟩ := h hakin hnear hx hy
  exact ⟨hab.discard, hend⟩

theorem ask {x : StateM World γ} {y : StateM World δ} (h : Twin r q x y) :
    TwinStep S r q (Resolving.ask x) (Resolving.ask y) := by
  intro e e' w w' _ _ d d' u u' hakin hnear hrun hrun'
  obtain ⟨a, hx, rfl, rfl⟩ := resolves_ask.1 hrun
  obtain ⟨b, hy, rfl, rfl⟩ := resolves_ask.1 hrun'
  obtain ⟨hab, hend⟩ := h hnear hx hy
  exact ⟨hab, hakin, hend⟩

theorem store {x : StateM World (Except StoreError γ)} {y : StateM World (Except StoreError δ)}
    (h : Twin r (Agree q) x y) : TwinStep S r q (Resolving.store x) (Resolving.store y) := by
  intro e e' w w' _ _ d d' u u' hakin hnear hrun hrun'
  obtain ⟨a, hx, rfl, rfl⟩ := resolves_store.1 hrun
  obtain ⟨b, hy, rfl, rfl⟩ := resolves_store.1 hrun'
  obtain ⟨hab, hend⟩ := h hnear hx hy
  exact ⟨hab.mapError _, hakin, hend⟩

theorem staging {x : StateM World (Except String γ)} {y : StateM World (Except String δ)}
    (h : Twin r (Agree q) x y) : TwinStep S r q (Resolving.staging x) (Resolving.staging y) := by
  intro e e' w w' _ _ d d' u u' hakin hnear hrun hrun'
  obtain ⟨a, hx, rfl, rfl⟩ := resolves_staging.1 hrun
  obtain ⟨b, hy, rfl, rfl⟩ := resolves_staging.1 hrun'
  obtain ⟨hab, hend⟩ := h hnear hx hy
  exact ⟨hab.mapError _, hakin, hend⟩

theorem entity : TwinStep S r (Entity.Akin r) Resolving.entity Resolving.entity := by
  intro e e' w w' _ _ d d' u u' hakin hnear hx hy
  obtain ⟨rfl, rfl, rfl⟩ := resolves_entity.1 hx
  obtain ⟨rfl, rfl, rfl⟩ := resolves_entity.1 hy
  exact ⟨hakin, hakin, hnear, .refl ..⟩

theorem setEntity {i i' : Entity S} (h : i.Akin r i') :
    TwinStep S r Eq (Resolving.setEntity i) (Resolving.setEntity i') := by
  intro e e' w w' _ _ d d' u u' hakin hnear hx hy
  obtain ⟨rfl, rfl, rfl⟩ := resolves_setEntity.1 hx
  obtain ⟨rfl, rfl, rfl⟩ := resolves_setEntity.1 hy
  exact ⟨rfl, h, hnear, .refl ..⟩

theorem outcome {x : Resolving (StateM World) S γ} {y : Resolving (StateM World) S δ}
    (h : TwinStep S r q x y) : TwinStep S r (Agree q) x.outcome y.outcome := by
  intro e e' w w' _ _ d d' u u' hakin hnear hrun hrun'
  obtain ⟨a, hx, rfl⟩ := resolves_outcome.1 hrun
  obtain ⟨b, hy, rfl⟩ := resolves_outcome.1 hrun'
  exact h hakin hnear hx hy

theorem lift (a : Except ResolveError γ) :
    TwinStep S r Eq (liftM a : Resolving (StateM World) S γ) (liftM a) := by
  intro e e' w w' _ _ d d' u u' hakin hnear hx hy
  obtain ⟨rfl, rfl, rfl⟩ := resolves_lift.1 hx
  obtain ⟨rfl, rfl, rfl⟩ := resolves_lift.1 hy
  exact ⟨agree_eq.2 rfl, hakin, hnear, .refl ..⟩

end TwinStep

end Twins

end Chronicle
