import Chronicle.Proofs.Loading
import Chronicle.Proofs.Settling

/-!
# What a world holds

A world is consistent if its log is numbered, every timeline in a cache of any node could have
been loaded from it, and every staged event can be recorded again. It holds the events of its log
and those of the batches that are staged. `Passes` says of a part of an operation that it keeps
a world consistent, that the log only grows, and what the world holds of one domain key more and
less than before; other domain keys are left alone. Parts of operations are put together by
adding up what they gain and lose.
-/

namespace Chronicle

variable {S : Type}

/-- A timeline that fits a log: its pending parts fit together, and it is based on the log. -/
structure Timeline.Rooted (t : Timeline) (log : EventLog) : Prop where
  sound : t.Sound
  based : t.Based log

namespace Timeline.Rooted

variable {log log' : EventLog} {t t' : Timeline}

protected theorem empty (hn : log.Numbered) (stream : StreamRef) :
    (Timeline.empty stream).Rooted log :=
  ⟨sound_ofHistory .., .empty hn stream⟩

theorem of_timeline {p : Snapshot → Prop} (hn : log.Numbered) (hr : log.Recorded p)
    {stream : StreamRef} (h : log.timeline stream = .ok t) : t.Rooted log :=
  ⟨(EventLog.timeline_spec hn hr h).2.2.1, .of_timeline hn hr h⟩

protected theorem mono (h : t.Rooted log) (hn : log.Numbered) (hn' : log'.Numbered)
    (hg : ∀ key, log.events key <+: log'.events key) : t.Rooted log' :=
  ⟨h.sound, h.based.mono hn hn' (hg _)⟩

theorem continues (h : t.Rooted log) (hc : t.Continues t') : t'.Rooted log where
  sound := hc.sound h.sound
  based := by
    have hk : t'.key .domain = t.key .domain := by rw [key, key, hc.stream]
    refine ⟨⟨?_, ?_⟩, ?_⟩
    · rw [hc.version]
      exact h.based.floor
    · rw [hc.version, hk]
      exact h.based.version
    · rw [hc.settled, hk]
      exact h.based.settled

protected theorem settle (h : t.Rooted log) (hs : Stored log log' t) (hn : log.Numbered)
    (hv : t.pending ≠ [] → log.version (t.key .domain) = t.version) : t.settle.Rooted log' :=
  ⟨h.sound.settle, hs.based_settle hn h.sound h.based hv⟩

end Timeline.Rooted

def StagingArea.all (a : StagingArea ConflictBatch) : List Event :=
  a.groups.keys.flatMap fun g => stagedEvents (a.group g)

@[simp] theorem stagedEvents_append (xs ys : List (Staged ConflictBatch)) :
    stagedEvents (xs ++ ys) = stagedEvents xs ++ stagedEvents ys :=
  List.flatMap_append

@[simp] theorem StagingArea.all_empty :
    (StagingArea.empty : StagingArea ConflictBatch).all = [] := by
  have hk : (StagingArea.empty : StagingArea ConflictBatch).groups.keys = [] :=
    Std.ExtTreeMap.keys_eq_nil_iff.2 rfl
  simp [all, hk]

theorem StagingArea.occurrences_setGroup (x : Lane × String × Json)
    (a : StagingArea ConflictBatch) (g : GroupName) (messages : List (Staged ConflictBatch)) :
    occurrences x (a.setGroup g messages).all + occurrences x (stagedEvents (a.group g)) =
      occurrences x a.all + occurrences x (stagedEvents messages) := by
  have hout : ∀ (b : StagingArea ConflictBatch), ∀ j ∉ b.groups.keys,
      stagedEvents (b.group j) = [] := by
    intro b j hj
    rw [Std.ExtTreeMap.mem_keys] at hj
    rw [group, Std.ExtTreeMap.getD_eq_fallback hj]
    rfl
  have hp := flatMap_update_perm a.groups.nodup_keys (a.setGroup g messages).groups.nodup_keys
    (hout a) (hout _) fun j hj => by rw [group_setGroup_of_ne a hj]
  have hx := occurrences_perm x hp
  simpa [all] using hx

namespace World

def queue (w : World) (area : Nat) (key : String) : List (Staged ConflictBatch) :=
  (w.area area).group ⟨weakChannel, key⟩

def restaged (w : World) (area : Nat) (key : String) (messages : List (Staged ConflictBatch)) :
    World :=
  { w with areas := w.areas.insert area ((w.area area).setGroup ⟨weakChannel, key⟩ messages) }

/-- How often a world holds `x` under a domain key, in its log or staged. -/
def held (w : World) (area : Nat) (key : String) (x : Lane × String × Json) : Nat :=
  occurrences x (w.log.events key) + occurrences x (stagedEvents (w.queue area key))

def heldAll (w : World) (area : Nat) (x : Lane × String × Json) : Nat :=
  occurrences x w.log.all + occurrences x (w.area area).all

@[simp] theorem held_start (wall : Moment) (area : Nat) (key : String)
    (x : Lane × String × Json) : (start wall).held area key x = 0 := by
  simp [held, queue, start, World.area, stagedEvents]

@[simp] theorem heldAll_start (wall : Moment) (area : Nat) (x : Lane × String × Json) :
    (start wall).heldAll area x = 0 := by
  simp [heldAll, start, World.area]

/-- The log is numbered, every cached timeline could have been loaded from it, and every staged
event can be recorded again. -/
structure Consistent (w : World) : Prop where
  numbered : w.log.Numbered
  recorded : w.log.Recorded fun _ => True
  cached : ∀ c key (t : Timeline), (w.cache c)[key]? = some t →
    t.key .domain = key ∧ t.Rooted w.log ∧ t.dirty = false
  routable : ∀ a g, ∀ e ∈ stagedEvents ((w.area a).group g), e.Routable

theorem area_restaged (w : World) (a b : Nat) (key : String)
    (messages : List (Staged ConflictBatch)) :
    (w.restaged a key messages).area b =
      if b = a then (w.area a).setGroup ⟨weakChannel, key⟩ messages else w.area b := by
  by_cases hb : b = a
  · subst hb
    simp [restaged, area]
  · simp [restaged, area, Std.ExtTreeMap.getD_insert, Ne.symm hb, hb]

@[simp] theorem queue_restaged (w : World) (a : Nat) (key : String)
    (messages : List (Staged ConflictBatch)) :
    (w.restaged a key messages).queue a key = messages := by
  simp [queue, area_restaged]

theorem queue_restaged_of_ne (w : World) (a : Nat) {key other : String} (h : other ≠ key)
    (messages : List (Staged ConflictBatch)) :
    (w.restaged a key messages).queue a other = w.queue a other := by
  simp only [queue, area_restaged, if_true]
  exact StagingArea.group_setGroup_of_ne _ (by simp [h]) _

namespace Consistent

variable {w w' : World} {t : Timeline}

theorem start (wall : Moment) : (World.start wall).Consistent where
  numbered := EventLog.numbered_empty
  recorded := EventLog.recorded_empty _
  cached c key t h := by simp [World.start, cache] at h
  routable a g e h := by simp [World.start, area, stagedEvents] at h

protected theorem idle (h : w.Consistent) (hi : w.Idle w') : w'.Consistent := by
  have hsame : ∀ key, w'.log.events key = w.log.events key := EventLog.events_congr hi.streams
  have hn : w'.log.Numbered := fun key => hsame key ▸ h.numbered key
  refine ⟨hn, ?_, ?_, ?_⟩
  · intro stream record hr
    rw [hsame] at hr
    simp only [EventLog.version, hsame]
    exact h.recorded stream record hr
  · intro c key t ht
    rw [hi.cache] at ht
    obtain ⟨hkey, hroot, hclean⟩ := h.cached c key t ht
    exact ⟨hkey, hroot.mono h.numbered hn fun k => hsame k ▸ List.prefix_refl _, hclean⟩
  · intro a g
    rw [hi.area]
    exact h.routable a g

protected theorem forget (h : w.Consistent) (c : Nat) (key : String) :
    (w.forget c key).Consistent where
  numbered := h.numbered
  recorded := h.recorded
  cached := by
    intro d k t ht
    rw [getElem?_cache_forget] at ht
    split at ht
    · cases ht
    · exact h.cached d k t ht
  routable := h.routable

protected theorem remember (h : w.Consistent) (c : Nat) (ht : t.Rooted w.log)
    (hclean : t.dirty = false) : (w.remember c (t.key .domain) t).Consistent where
  numbered := h.numbered
  recorded := h.recorded
  cached := by
    intro d k s hs
    rw [getElem?_cache_remember] at hs
    split at hs
    · rename_i hk
      cases hs
      exact ⟨hk.2.symm, ht, hclean⟩
    · exact h.cached d k s hs
  routable := h.routable

/-- What a node is given could have been loaded from the log. -/
theorem view (h : w.Consistent) {c : Nat} {stream : StreamRef} (hv : w.view c stream = .ok t) :
    t.key .domain = stream.key .domain ∧ t.Rooted w.log ∧ t.dirty = false := by
  unfold World.view at hv
  cases hc : (w.cache c)[stream.key .domain]? with
  | some s =>
    simp only [hc, Except.ok.injEq] at hv
    subst hv
    exact h.cached c _ s hc
  | none =>
    simp only [hc] at hv
    obtain ⟨hs, -, -, hclean, -⟩ := EventLog.timeline_spec h.numbered h.recorded hv
    exact ⟨by rw [Timeline.key, hs], .of_timeline h.numbered h.recorded hv, hclean⟩

protected theorem viewed (h : w.Consistent) (c : Nat) (stream : StreamRef) :
    (w.viewed c stream).Consistent := by
  unfold World.viewed
  split
  · rename_i t hc ht
    have hv : w.view c stream = .ok t := by simp [World.view, hc, ht]
    obtain ⟨hkey, hroot, hclean⟩ := h.view hv
    rw [← hkey]
    exact h.remember c hroot hclean
  · exact h

protected theorem stored (h : w.Consistent) (i : Nat) {log : EventLog} (hs : Stored w.log log t)
    (ht : t.Rooted w.log) : (w.logged i log).Consistent where
  numbered := hs.numbered h.numbered
  recorded := hs.recorded h.numbered h.recorded ht.sound ht.based.toBehind fun _ _ => trivial
  cached := by
    intro c key s hc
    obtain ⟨hkey, hroot, hclean⟩ := h.cached c key s hc
    exact ⟨hkey, hroot.mono h.numbered (hs.numbered h.numbered) hs.grows, hclean⟩
  routable := h.routable

protected theorem restaged (h : w.Consistent) (a : Nat) (key : String)
    {messages : List (Staged ConflictBatch)} (hm : ∀ e ∈ stagedEvents messages, e.Routable) :
    (w.restaged a key messages).Consistent where
  numbered := h.numbered
  recorded := h.recorded
  cached := h.cached
  routable := by
    intro b g
    rw [area_restaged]
    split
    · by_cases hg : g = ⟨weakChannel, key⟩
      · rw [hg, StagingArea.group_setGroup_self]
        exact hm
      · rw [StagingArea.group_setGroup_of_ne _ hg]
        exact h.routable a g
    · exact h.routable b g

end Consistent

/-- A consistent world in which the log has only grown, and which holds what the former one held
and what was gained, but for what was lost, all of it under one domain key. -/
structure Passes (area : Nat) (w w' : World) (key : String) (gained lost : List Event) :
    Prop where
  consistent : w'.Consistent
  grows : ∀ key, w.log.events key <+: w'.log.events key
  here : ∀ x : Lane × String × Json, x.1 = .domain →
    w'.held area key x + occurrences x lost = w.held area key x + occurrences x gained
  elsewhere : ∀ stream : StreamRef, stream.key .domain ≠ key → ∀ x : Lane × String × Json,
    w'.held area (stream.key .domain) x = w.held area (stream.key .domain) x
  oobs : ∀ x : Lane × String × Json, x.1 = .oob →
    w'.heldAll area x + occurrences x lost = w.heldAll area x + occurrences x gained

namespace Passes

variable {area : Nat} {w w' w'' : World} {key : String} {t : Timeline}
  {gained lost gained' lost' : List Event}

theorem rooted (h : w.Passes area w' key gained lost) (hc : w.Consistent)
    (ht : t.Rooted w.log) : t.Rooted w'.log :=
  ht.mono hc.numbered h.consistent.numbered h.grows

theorem trans (h : w.Passes area w' key gained lost) (h' : w'.Passes area w'' key gained' lost') :
    w.Passes area w'' key (gained ++ gained') (lost ++ lost') where
  consistent := h'.consistent
  grows k := (h.grows k).trans (h'.grows k)
  here x hx := by
    have := h.here x hx
    have := h'.here x hx
    simp only [occurrences_append]
    omega
  elsewhere stream hs x := (h'.elsewhere stream hs x).trans (h.elsewhere stream hs x)
  oobs x hx := by
    have := h.oobs x hx
    have := h'.oobs x hx
    simp only [occurrences_append]
    omega

theorem congr (h : w.Passes area w' key gained lost) (hx : ∀ x,
    occurrences x gained' + occurrences x lost = occurrences x gained + occurrences x lost') :
    w.Passes area w' key gained' lost' where
  consistent := h.consistent
  grows := h.grows
  here x hd := by
    have := h.here x hd
    have := hx x
    omega
  elsewhere := h.elsewhere
  oobs x ho := by
    have := h.oobs x ho
    have := hx x
    omega

private theorem same (area : Nat) (key : String) (hc : w'.Consistent)
    (hs : w'.log.streams = w.log.streams) (ha : w'.areas = w.areas) :
    w.Passes area w' key [] [] := by
  have hevents := EventLog.events_congr hs
  have harea : w'.area area = w.area area := by
    rw [World.area, ha]
    rfl
  have hheld : ∀ k x, w'.held area k x = w.held area k x := by
    intro k x
    rw [held, held, queue, queue, hevents, harea]
  refine ⟨hc, fun k => hevents k ▸ List.prefix_refl _, fun x _ => ?_, fun stream _ x => hheld _ x,
    fun x _ => ?_⟩
  · rw [hheld]
  · rw [heldAll, heldAll, harea, EventLog.all, EventLog.all, EventLog.keys, EventLog.keys, hs,
      funext hevents]

theorem idle (hc : w.Consistent) (hi : w.Idle w') (area : Nat) (key : String) :
    w.Passes area w' key [] [] :=
  same area key (hc.idle hi) hi.streams hi.areas

theorem refl (hc : w.Consistent) (area : Nat) (key : String) : w.Passes area w key [] [] :=
  idle hc (.refl w) area key

theorem forget (hc : w.Consistent) (c : Nat) (k : String) (area : Nat) (key : String) :
    w.Passes area (w.forget c k) key [] [] :=
  same area key (hc.forget c k) rfl rfl

theorem remember (hc : w.Consistent) (c : Nat) (ht : t.Rooted w.log) (hclean : t.dirty = false)
    (area : Nat) (key : String) : w.Passes area (w.remember c (t.key .domain) t) key [] [] :=
  same area key (hc.remember c ht hclean) rfl rfl

theorem viewed (hc : w.Consistent) (c : Nat) (stream : StreamRef) (area : Nat) (key : String) :
    w.Passes area (w.viewed c stream) key [] [] :=
  same area key (hc.viewed c stream) (by rw [log_viewed]) (areas_viewed ..)

theorem stored (hc : w.Consistent) (i : Nat) {log : EventLog} (hs : Stored w.log log t)
    (ht : t.Rooted w.log) (area : Nat) :
    w.Passes area (w.logged i log) (t.key .domain) t.batch [] where
  consistent := hc.stored i hs ht
  grows := hs.grows
  here := by
    intro x hx
    obtain ⟨time, headers, ids, hev⟩ := hs.domain
    have hoobs : occurrences x t.pendingOobs = 0 :=
      occurrences_eq_zero fun e he => by simp [(ht.sound.oobs e he).1, hx]
    rw [held, held, log_logged, hev, occurrences_append, EventLog.occurrences_stamped,
      occurrences_batch, hoobs, occurrences_nil]
    change _ + occurrences x (stagedEvents (w.queue area (t.key .domain))) + 0 = _
    omega
  elsewhere := by
    intro stream hne x
    rw [held, held, log_logged, hs.others stream .domain (by decide) hne]
    rfl
  oobs := by
    intro x hx
    rw [heldAll, heldAll, log_logged, hs.all ht.sound x (by simp [hx]), occurrences_nil]
    change _ + _ + occurrences x (w.area area).all + 0 = _
    omega

theorem restaged (hc : w.Consistent) (area : Nat) (key : String)
    {messages : List (Staged ConflictBatch)} (hm : ∀ e ∈ stagedEvents messages, e.Routable) :
    w.Passes area (w.restaged area key messages) key (stagedEvents messages)
      (stagedEvents (w.queue area key)) where
  consistent := hc.restaged area key hm
  grows _ := List.prefix_refl _
  here := by
    intro x _
    rw [held, held, queue_restaged]
    change occurrences x (w.log.events key) + _ + _ = _
    omega
  elsewhere := by
    intro stream hne x
    rw [held, held, queue_restaged_of_ne w area hne]
    rfl
  oobs := by
    intro x _
    have h := StagingArea.occurrences_setGroup x (w.area area) ⟨weakChannel, key⟩ messages
    rw [heldAll, heldAll, area_restaged, if_pos rfl, queue]
    change occurrences x w.log.all + _ + _ = _
    omega

end Passes

end World

end Chronicle
