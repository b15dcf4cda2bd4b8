import Chronicle.Proofs.Histories

/-!
# How far a stream runs on behind its last snapshot

A policy that asks for a snapshot every so many events decides from the timeline at hand, which may
be cached, outdated, or loaded before others wrote. It decides well nevertheless. The snapshot that
a timeline starts from is never ahead of the last one that is recorded, and a timeline that is
outdated is not written. What is written is therefore close to the snapshot that it starts from, or
brings one of its own.

Only a batch that is stored without a check of the version would break this.
-/

namespace Chronicle

variable {S : Type} {log log' : EventLog} {t t' : Timeline}

namespace Snapshot

/-- The version that the written form of a snapshot names. -/
def versionIn : Json → Int
  | .object fields =>
    match fields.lookup "version" with
    | some (.int v) => v
    | _ => newStreamVersion
  | _ => newStreamVersion

@[simp] theorem versionIn_toJson (s : Snapshot) : versionIn s.toJson = s.version := by
  rw [toJson_eq]
  rfl

end Snapshot

namespace Timeline

/-- The version of the snapshot that a timeline starts from. -/
def base (t : Timeline) : Int :=
  match t.snapshot with
  | some s => s.version
  | none => newStreamVersion

theorem base_settle_of_none (h : t.pendingSnapshot = none) : t.settle.base = t.base := by
  simp [base, settle, h]

theorem base_settle_of_some {s : Snapshot} (h : t.pendingSnapshot = some s) :
    t.settle.base = s.version := by
  simp [base, settle, h]

end Timeline

namespace EventLog

/-- The version of the last snapshot that is recorded for a stream. -/
def mark (log : EventLog) (stream : StreamRef) : Int :=
  match (log.events (stream.key .snapshot)).getLast? with
  | some record => Snapshot.versionIn record.payload
  | none => newStreamVersion

theorem mark_congr {stream stream' : StreamRef}
    (h : log'.events (stream'.key .snapshot) = log.events (stream.key .snapshot)) :
    log'.mark stream' = log.mark stream := by
  rw [mark, h, mark]

theorem Recorded.mark_le (hr : log.Recorded fun _ => True) (hn : log.Numbered)
    (stream : StreamRef) : log.mark stream ≤ log.version (stream.key .domain) := by
  unfold mark
  cases hl : (log.events (stream.key .snapshot)).getLast? with
  | none => exact hn.le_version _
  | some record =>
    obtain ⟨s, hpay, -, hhigh, -⟩ := hr stream record (List.mem_of_getLast? hl)
    simpa [hpay] using hhigh

theorem Recorded.base_timeline (hr : log.Recorded fun _ => True) {stream : StreamRef}
    (h : log.timeline stream = .ok t) : t.base = log.mark stream := by
  obtain ⟨snapshot, hs, rfl⟩ := except_map_eq_ok.1 h
  unfold EventLog.lastSnapshot at hs
  have hback : log.readBack (stream.key .snapshot) 1 =
      (log.events (stream.key .snapshot)).getLast?.toList := by
    rw [readBack, ← List.head?_reverse]
    cases (log.events (stream.key .snapshot)).reverse <;> rfl
  rw [hback] at hs
  unfold mark
  cases hl : (log.events (stream.key .snapshot)).getLast? with
  | none =>
    rw [hl] at hs
    cases hs
    rfl
  | some record =>
    obtain ⟨s, hpay, -⟩ := hr stream record (List.mem_of_getLast? hl)
    rw [hl] at hs
    cases hd : Snapshot.decode record.payload with
    | error err => simp [hd] at hs
    | ok found =>
      simp only [Option.toList_some, hd, Except.ok.injEq] at hs
      subst hs
      rw [hpay] at hd
      change found.version = Snapshot.versionIn record.payload
      rw [hpay, Snapshot.versionIn_toJson]
      exact (Snapshot.of_decode_toJson hd).1

end EventLog

/-- The timeline is not ahead of the log, it starts from a snapshot that is not ahead of the last
recorded one, and a snapshot is pending only with events. -/
structure Timeline.Anchored (t : Timeline) (log : EventLog) : Prop extends t.Behind log where
  sound : t.Sound
  base_le_mark : t.base ≤ log.mark t.stream
  base_le_version : t.base ≤ t.version
  staged : t.pendingSnapshot ≠ none → t.pending ≠ []

/-- Once the timeline is stored, fewer than `n` of its events come after its last snapshot. -/
def Timeline.Within (t : Timeline) (n : Nat) : Prop := t.nextVersion < t.settle.base + n

namespace Timeline.Anchored

protected theorem empty (hn : log.Numbered) (hr : log.Recorded fun _ => True)
    (stream : StreamRef) : (Timeline.empty stream).Anchored log where
  floor := Int.le_refl _
  version := hn.le_version _
  sound := sound_ofHistory ..
  base_le_mark := by
    change newStreamVersion ≤ log.mark stream
    unfold EventLog.mark
    cases hl : (log.events (stream.key .snapshot)).getLast? with
    | none => exact Int.le_refl _
    | some record =>
      obtain ⟨s, hpay, hlow, -⟩ := hr stream record (List.mem_of_getLast? hl)
      simpa [hpay] using hlow
  base_le_version := Int.le_refl _
  staged h := absurd rfl h

theorem of_timeline (hn : log.Numbered) (hr : log.Recorded fun _ => True) {stream : StreamRef}
    (h : log.timeline stream = .ok t) : t.Anchored log := by
  obtain ⟨rfl, hversion, hsound, hclean, -⟩ := EventLog.timeline_spec hn hr h
  have hbase := hr.base_timeline h
  have hmark := hr.mark_le hn t.stream
  refine ⟨⟨?_, Int.le_of_eq hversion⟩, hsound, Int.le_of_eq hbase, ?_, fun hstaged => ?_⟩
  · rw [hversion]
    exact hn.le_version _
  · rw [hversion, hbase]
    exact hmark
  · exact absurd (dirty_eq_false.1 hclean).2.2 hstaged

theorem continues (h : t.Anchored log) (hc : t.Continues t')
    (hstaged : t'.pendingSnapshot ≠ none → t'.pending ≠ []) : t'.Anchored log where
  floor := by
    rw [hc.version]
    exact h.floor
  version := by
    rw [hc.version, key, hc.stream]
    exact h.version
  sound := hc.sound h.sound
  base_le_mark := by
    rw [base, hc.snapshot, hc.stream]
    exact h.base_le_mark
  base_le_version := by
    rw [base, hc.snapshot, hc.version]
    exact h.base_le_version
  staged := hstaged

theorem of_apply {e e' : Entity S} {stamp : Stamp} {move : Move S}
    (h : e.timeline.Anchored log) (ha : e.apply stamp move = .ok e') :
    e'.timeline.Anchored log := by
  refine h.continues (.of_apply ha) fun _ => ?_
  obtain ⟨payload, -, rfl⟩ := Entity.apply_eq_ok ha
  simp

theorem of_raise {e e' : Entity S} {stamp : Stamp} {move : Move S} {channel : String}
    {transient : Bool} {daysToLive : Option Nat} (h : e.timeline.Anchored log)
    (ha : e.raise stamp move channel transient daysToLive = .ok e') :
    e'.timeline.Anchored log := by
  refine h.continues (.of_raise ha) fun hstaged => ?_
  obtain ⟨payload, _, rfl⟩ := Entity.raise_eq_ok ha
  exact h.staged hstaged

theorem of_staged {m : Type → Type} {routes : Routes m S} {e e' : Entity S} {time : Moment}
    (h : e.timeline.Anchored log) (hs : e.staged routes time = .ok e') :
    e'.timeline.Anchored log := by
  rcases Entity.staged_eq_ok hs with ⟨-, rfl⟩ | ⟨hdue, _, memento, -, -, rfl⟩
  · exact h
  · refine h.continues (.addSnapshot ..) fun _ hnil => ?_
    have hnil' : e.timeline.pending = [] := hnil
    simp [Entity.shouldTakeSnapshot, hnil'] at hdue

theorem of_merges {routes : Routes Id S} {drawn : Moment → Prop} {e d : Entity S}
    {events kept dropped : List Event} (h : e.timeline.Anchored log)
    (hclean : e.timeline.dirty = false) (hm : e.Merges routes drawn events d kept dropped) :
    d.timeline.Anchored log := by
  refine h.continues hm.continues fun hstaged => ?_
  obtain ⟨s, hs⟩ := Option.ne_none_iff_exists'.1 hstaged
  exact (hm.staged (dirty_eq_false.1 hclean).2.2 hs).2.2.1

theorem congr (h : t.Anchored log) (hs : log'.streams = log.streams) : t.Anchored log' := by
  have hevents := EventLog.events_congr hs
  refine ⟨⟨h.floor, ?_⟩, h.sound, ?_, h.base_le_version, h.staged⟩
  · rw [EventLog.version, hevents]
    exact h.version
  · rw [EventLog.mark_congr (hevents _)]
    exact h.base_le_mark

end Timeline.Anchored

/-- A policy of every `n` events keeps what is to be stored close to a snapshot. -/
theorem Entity.within_staged {m : Type → Type} {routes : Routes m S} {e e' : Entity S}
    {time : Moment} {n : Nat} (hn : 1 ≤ n) (hpolicy : routes.policy? = some (.everyEvents n))
    (h : e.timeline.Anchored log) (hpending : e.timeline.pending ≠ [])
    (hs : e.staged routes time = .ok e') : e'.timeline.Within n := by
  rcases staged_eq_ok hs with ⟨hdue, rfl⟩ | ⟨-, _, memento, -, -, rfl⟩
  · -- No snapshot is due, so that there are few events after the one that the timeline starts from.
    -- One that was staged by an earlier commit is not behind that.
    have hfew : e'.timeline.sinceSnapshot < n := by
      simpa [shouldTakeSnapshot, hpolicy, hpending, SnapshotPolicy.isDue] using hdue
    change (e'.timeline.nextVersion - e'.timeline.base).toNat < n at hfew
    have hbase := h.base_le_version
    have hsettled : e'.timeline.base ≤ e'.timeline.settle.base := by
      cases hstaged : e'.timeline.pendingSnapshot with
      | none => exact Int.le_of_eq (Timeline.base_settle_of_none hstaged).symm
      | some s =>
        rw [Timeline.base_settle_of_some hstaged]
        exact Int.le_trans hbase (h.sound.snapshot s hstaged).1
    simp only [Timeline.Within]
    omega
  · change e.timeline.nextVersion < e.timeline.nextVersion + n
    omega

namespace Stored

theorem mark_stream (hs : Stored log log' t) :
    log'.mark t.stream = match t.pendingSnapshot with
      | some s => s.version
      | none => log.mark t.stream := by
  have hsnap := hs.snapshot
  cases hp : t.pendingSnapshot with
  | none =>
    rw [hp] at hsnap
    exact EventLog.mark_congr hsnap
  | some s =>
    rw [hp] at hsnap
    obtain ⟨record, hpay, hevents⟩ := hsnap
    have hl : (log'.events (t.stream.key .snapshot)).getLast? = some record := by
      change (log'.events (t.key .snapshot)).getLast? = some record
      simp [hevents]
    simp [EventLog.mark, hl, hpay]

/-- The last record does not go back if the timeline was at the version of its stream. -/
theorem mark_mono (hs : Stored log log' t) (hn : log.Numbered)
    (hr : log.Recorded fun _ => True) (ht : t.Anchored log)
    (hv : t.pending ≠ [] → log.version (t.key .domain) = t.version) (stream : StreamRef) :
    log.mark stream ≤ log'.mark stream := by
  by_cases hk : stream.key .snapshot = t.key .snapshot
  · rw [EventLog.mark_congr (congrArg log.events hk), EventLog.mark_congr (congrArg log'.events hk),
      hs.mark_stream]
    cases hp : t.pendingSnapshot with
    | none => exact Int.le_refl _
    | some s =>
      have hlow := (ht.sound.snapshot s hp).1
      rw [← hv (ht.staged (by simp [hp]))] at hlow
      exact Int.le_trans (hr.mark_le hn t.stream) hlow
  · exact Int.le_of_eq (EventLog.mark_congr (hs.others stream .snapshot (by decide) hk)).symm

theorem anchored (hs : Stored log log' t) (hn : log.Numbered) (hr : log.Recorded fun _ => True)
    (ht : t.Anchored log) (hv : t.pending ≠ [] → log.version (t.key .domain) = t.version)
    (h : t'.Anchored log) : t'.Anchored log' where
  toBehind := h.toBehind.mono hn (hs.numbered hn) (hs.grows _)
  sound := h.sound
  base_le_mark := Int.le_trans h.base_le_mark (hs.mark_mono hn hr ht hv _)
  base_le_version := h.base_le_version
  staged := h.staged

theorem anchored_settle (hs : Stored log log' t) (hn : log.Numbered)
    (hr : log.Recorded fun _ => True) (ht : t.Anchored log)
    (hv : t.pending ≠ [] → log.version (t.key .domain) = t.version) :
    t.settle.Anchored log' where
  toBehind := hs.behind_settle hn ht.sound ht.toBehind
  sound := ht.sound.settle
  base_le_mark := by
    have hmark := hs.mark_stream
    cases hp : t.pendingSnapshot with
    | none =>
      rw [Timeline.base_settle_of_none hp]
      exact (hs.anchored hn hr ht hv ht).base_le_mark
    | some s =>
      rw [hp] at hmark
      rw [Timeline.base_settle_of_some hp]
      exact Int.le_of_eq hmark.symm
  base_le_version := by
    change t.settle.base ≤ t.nextVersion
    cases hp : t.pendingSnapshot with
    | none =>
      rw [Timeline.base_settle_of_none hp]
      exact Int.le_trans ht.base_le_version ht.sound.version_le
    | some s =>
      rw [Timeline.base_settle_of_some hp]
      exact (ht.sound.snapshot s hp).2
  staged h := absurd rfl h

/-- If few events come after the last record, so they do once a timeline was stored that is close to
a snapshot. -/
theorem version_lt_mark {n : Nat} {stream : StreamRef} (hs : Stored log log' t)
    (hn : log.Numbered) (hr : log.Recorded fun _ => True) (ht : t.Anchored log)
    (hv : t.pending ≠ [] → log.version (t.key .domain) = t.version)
    (hw : t.key .domain = stream.key .domain → t.pending ≠ [] → t.Within n)
    (h : log.version (stream.key .domain) < log.mark stream + n) :
    log'.version (stream.key .domain) < log'.mark stream + n := by
  by_cases hk : stream.key .domain = t.key .domain
  · by_cases hp : t.pending = []
    · have hversion := hs.version hn
      have hmark := hs.mark_mono hn hr ht hv stream
      rw [← hk, hp, List.length_nil] at hversion
      omega
    · have hwithin := hw hk.symm hp
      have hversion := hs.version hn
      have hnext := ht.sound.next
      have hbase := (hs.anchored_settle hn hr ht hv).base_le_mark
      have hmark : log'.mark t.settle.stream = log'.mark stream :=
        EventLog.mark_congr (congrArg log'.events (StreamRef.key_eq_key hk .snapshot).symm)
      rw [hv hp] at hversion
      rw [hmark] at hbase
      rw [hk, hversion]
      simp only [Timeline.Within] at hwithin
      omega
  · have hsnap : stream.key .snapshot ≠ t.key .snapshot :=
      fun hsnap => hk (StreamRef.key_eq_key hsnap .domain)
    rw [hs.version_of_ne hk,
      EventLog.mark_congr (hs.others stream .snapshot (by decide) hsnap)]
    exact h

end Stored

namespace World

variable {stream : StreamRef} {n : Nat} {w w' w'' : World} {key : String}

/-- Fewer than `n` events of the stream come after its last snapshot, and every cached timeline is
anchored in the log. -/
structure Spaced (w : World) (stream : StreamRef) (n : Nat) : Prop where
  numbered : w.log.Numbered
  recorded : w.log.Recorded fun _ => True
  cached : ∀ (c : Nat) (key : String) (t : Timeline), (w.cache c)[key]? = some t →
    t.key .domain = key ∧ t.Anchored w.log ∧ t.dirty = false
  near : w.log.version (stream.key .domain) < w.log.mark stream + n

/-- From one world to a later one in which few events come after the last snapshot, and in which
every timeline that was anchored still is. -/
structure Spaces (stream : StreamRef) (n : Nat) (w w' : World) : Prop where
  spaced : w'.Spaced stream n
  anchored : ∀ t : Timeline, t.Anchored w.log → t.Anchored w'.log

namespace Spaces

theorem trans (h : Spaces stream n w w') (h' : Spaces stream n w' w'') : Spaces stream n w w'' where
  spaced := h'.spaced
  anchored t ht := h'.anchored t (h.anchored t ht)

theorem same (h : w.Spaced stream n) (hs : w'.log.streams = w.log.streams)
    (hcaches : w'.caches = w.caches) : Spaces stream n w w' where
  anchored t ht := ht.congr hs
  spaced := by
    have hevents := EventLog.events_congr hs
    refine ⟨fun k => hevents k ▸ h.numbered k, fun s record hrecord => ?_, fun c k s hcached => ?_,
      ?_⟩
    · rw [hevents] at hrecord
      rw [EventLog.version, hevents]
      exact h.recorded s record hrecord
    · rw [cache, hcaches] at hcached
      obtain ⟨hkey, hanchored, hclean⟩ := h.cached c k s hcached
      exact ⟨hkey, hanchored.congr hs, hclean⟩
    · rw [EventLog.version, hevents, EventLog.mark_congr (hevents _)]
      exact h.near

theorem refl (h : w.Spaced stream n) : Spaces stream n w w := same h rfl rfl

theorem idle (h : w.Spaced stream n) (hi : w.Idle w') : Spaces stream n w w' :=
  same h hi.streams hi.caches

theorem forget (h : w.Spaced stream n) (c : Nat) (key : String) :
    Spaces stream n w (w.forget c key) where
  anchored _ ht := ht
  spaced := by
    refine ⟨h.numbered, h.recorded, fun d k t ht => ?_, h.near⟩
    rw [getElem?_cache_forget] at ht
    split at ht
    · cases ht
    · exact h.cached d k t ht

theorem remember (h : w.Spaced stream n) (c : Nat) (ht : t.Anchored w.log)
    (hclean : t.dirty = false) : Spaces stream n w (w.remember c (t.key .domain) t) where
  anchored _ ht := ht
  spaced := by
    refine ⟨h.numbered, h.recorded, fun d k s hs => ?_, h.near⟩
    rw [getElem?_cache_remember] at hs
    split at hs
    · rename_i hk
      cases hs
      exact ⟨hk.2.symm, ht, hclean⟩
    · exact h.cached d k s hs

end Spaces

namespace Spaced

protected theorem start (wall : Moment) (stream : StreamRef) (hn : 1 ≤ n) :
    (World.start wall).Spaced stream n where
  numbered := EventLog.numbered_empty
  recorded := EventLog.recorded_empty _
  cached c key t h := by simp [World.start, cache] at h
  near := by
    have hmark : EventLog.empty.mark stream = newStreamVersion := by simp [EventLog.mark]
    change EventLog.empty.version (stream.key .domain) < EventLog.empty.mark stream + n
    simp only [EventLog.version, EventLog.events_empty, hmark, List.getLast?_nil]
    omega

theorem view (h : w.Spaced stream n) {c : Nat} {other : StreamRef}
    (hv : w.view c other = .ok t) :
    t.key .domain = other.key .domain ∧ t.Anchored w.log ∧ t.dirty = false := by
  unfold World.view at hv
  cases hc : (w.cache c)[other.key .domain]? with
  | some s =>
    simp only [hc, Except.ok.injEq] at hv
    subst hv
    exact h.cached c _ s hc
  | none =>
    simp only [hc] at hv
    obtain ⟨rfl, -, -, hclean, -⟩ := EventLog.timeline_spec h.numbered h.recorded hv
    exact ⟨rfl, .of_timeline h.numbered h.recorded hv, hclean⟩

theorem loaded (h : w.Spaced stream n) {m : Type → Type} {routes : Routes m S} {c : Nat}
    {other : StreamRef} {e : Entity S} (hl : w.loaded c routes other = .ok e) :
    e.timeline.key .domain = other.key .domain ∧ e.timeline.Anchored w.log ∧
      e.timeline.dirty = false :=
  h.view (view_of_loaded hl)

end Spaced

theorem Spaces.viewed (h : w.Spaced stream n) (c : Nat) (other : StreamRef) :
    Spaces stream n w (w.viewed c other) := by
  unfold World.viewed
  split
  · rename_i t hc ht
    have hv : w.view c other = .ok t := by simp [World.view, hc, ht]
    obtain ⟨hkey, hanchored, hclean⟩ := h.view hv
    exact hkey ▸ Spaces.remember h c hanchored hclean
  · exact .refl h

theorem Spaces.stored (h : w.Spaced stream n) (i : Nat) (hs : Stored w.log log t)
    (ht : t.Anchored w.log) (hv : t.pending ≠ [] → w.log.version (t.key .domain) = t.version)
    (hw : t.key .domain = stream.key .domain → t.pending ≠ [] → t.Within n) :
    Spaces stream n w (w.logged i log) where
  anchored _ h' := hs.anchored h.numbered h.recorded ht hv h'
  spaced := {
    numbered := hs.numbered h.numbered
    recorded := hs.recorded h.numbered h.recorded ht.sound ht.toBehind fun _ _ => trivial
    cached := fun c key t' hcached => by
      obtain ⟨hkey, hanchored, hclean⟩ := h.cached c key t' hcached
      exact ⟨hkey, hs.anchored h.numbered h.recorded ht hv hanchored, hclean⟩
    near := hs.version_lt_mark h.numbered h.recorded ht hv hw h.near }

variable {node : Node} {opened : Moment} {routes : Routes Id S} {current batch : List Event}
  {drawn : Moment → Prop} {commitId : Uuid} {headers : Headers} {e e' d : Entity S}
  {r : Except ResolveError Resolution}

/-- If entities under a domain key are those of the stream, their policy asks for a snapshot every
`n` events. -/
def Paces {m : Type → Type} (routes : Routes m S) (stream : StreamRef) (n : Nat) (key : String) :
    Prop :=
  key = stream.key .domain → routes.policy? = some (.everyEvents n)

theorem Merged.spaces (h : Merged node drawn routes batch e w r e' w') (hn : 1 ≤ n)
    (hpaces : Paces routes stream n (e.timeline.key .domain)) (hw : w.Spaced stream n)
    (he : e.timeline.Anchored w.log) (hclean : e.timeline.dirty = false) :
    Spaces stream n w w' ∧ ∀ resolution, r = .ok resolution →
      e'.timeline.Anchored w'.log ∧ e'.timeline.stream = e.timeline.stream := by
  cases h with
  | failed _ hidle => exact ⟨.idle hw hidle, nofun⟩
  | outdated _ _ hidle =>
    have hforgot := Spaces.forget hw node.cache (e.timeline.key .domain)
    exact ⟨hforgot.trans (.idle hforgot.spaced hidle), nofun⟩
  | nothing hmerges _ hidle =>
    have hsame := Spaces.idle hw hidle
    exact ⟨hsame, fun _ _ =>
      ⟨hsame.anchored _ (he.of_merges hclean hmerges), hmerges.continues.stream⟩⟩
  | @stored d kept dropped i log w₁ _ hbefore hmerges hversion hstored hafter =>
    have hsame := Spaces.idle hw hbefore
    have hd := hsame.anchored _ (he.of_merges hclean hmerges)
    have hkey : d.timeline.key .domain = e.timeline.key .domain := by
      rw [Timeline.key, Timeline.key, hmerges.continues.stream]
    have hwithin : d.timeline.key .domain = stream.key .domain → d.timeline.pending ≠ [] →
        d.timeline.Within n := by
      intro hk hpending
      obtain @⟨taken, _, _, _, _, -, htakes, -, hstaged⟩ := hmerges
      have htaken : taken.timeline.Anchored w.log := by
        refine he.continues htakes.continues fun hsome => ?_
        rw [htakes.unstaged, (Timeline.dirty_eq_false.1 hclean).2.2] at hsome
        exact absurd rfl hsome
      refine Entity.within_staged hn (hpaces (hkey.symm.trans hk)) htaken ?_ hstaged
      rcases Entity.staged_eq_ok hstaged with ⟨-, rfl⟩ | ⟨-, _, memento, -, -, rfl⟩ <;>
        exact hpending
    have hlogged := Spaces.stored hsame.spaced i hstored hd hversion hwithin
    have hsettled := hstored.anchored_settle hsame.spaced.numbered hsame.spaced.recorded hd hversion
    have hcached := Spaces.remember hlogged.spaced node.cache hsettled rfl
    have hend := Spaces.idle hcached.spaced hafter
    exact ⟨((hsame.trans hlogged).trans hcached).trans hend,
      fun _ _ => ⟨hend.anchored _ (hcached.anchored _ hsettled), hmerges.continues.stream⟩⟩

private theorem spaces_alone {pulled : List (Staged ConflictBatch)} {fresh : Entity S} {id : Uuid}
    {other : StreamRef} {w₁ w₂ : World}
    (hload : Runs (loadEntity (node.store (site opened)) routes.lift other).run w (.ok fresh) w₁)
    (hid : Runs (surroundings cell).freshId w₁ id w₂)
    (hmerge : Resolves (settleBatch (node.store (site opened)) (surroundings cell) routes.lift
      (stagedEvents pulled) id ∅ .resolveWeakly node.settings.freezeThreshold) fresh w₂ r d w')
    (hn : 1 ≤ n) (hpaces : Paces routes stream n (other.key .domain)) (hw : w.Spaced stream n) :
    Spaces stream n w w' := by
  obtain ⟨hfound, rfl⟩ := runs_loadEntity.1 hload
  obtain ⟨i, rfl⟩ := runs_freshId hid
  have hviewed := Spaces.viewed hw node.cache other
  have hissued := hviewed.trans (.idle hviewed.spaced (.issued _ i))
  obtain ⟨hkey, hfresh, hclean⟩ := hw.loaded hfound.symm
  exact hissued.trans ((merged_of_settleBatch hmerge).spaces hn (hkey ▸ hpaces) hissued.spaced
    (hissued.anchored _ hfresh) hclean).1

private theorem spaces_unmerged {pulled : List (Staged ConflictBatch)} {other : StreamRef}
    (h : (node.weak (site opened)).Unmerged routes pulled other w w') (hn : 1 ≤ n)
    (hpaces : Paces routes stream n (other.key .domain)) (hw : w.Spaced stream n) :
    Spaces stream n w w' := by
  cases h with
  | untried => exact .refl hw
  | unloaded hload =>
    obtain ⟨-, rfl⟩ := runs_loadEntity.1 hload
    exact .viewed hw ..
  | failed hload hid hmerge => exact spaces_alone hload hid hmerge hn hpaces hw

/-- Whatever becomes of staged batches, what is stored of them is close to a snapshot. -/
theorem spaces_resolveStaged
    (h : Resolves ((node.weak (site opened)).resolveStaged routes.lift current commitId headers) e w
      r e' w') (hn : 1 ≤ n) (hpaces : Paces routes stream n (e.timeline.key .domain))
    (hw : w.Spaced stream n) (he : e.timeline.Anchored w.log) (hclean : e.timeline.dirty = false) :
    Spaces stream n w w' ∧ ∀ resolution, r = .ok resolution →
      e'.timeline.Anchored w'.log ∧ e'.timeline.stream = e.timeline.stream := by
  obtain ⟨waiting, pulled, w₁, w₂, hsize, hpull, hcourse⟩ :=
    WeakResolver.course_of_resolveStaged (granting_weak node opened) h
  obtain ⟨-, rfl⟩ := runs_size.1 hsize
  obtain ⟨count, -, rfl, -⟩ := runs_pull hpull
  have hopen : Spaces stream n w₁ (w₁.restaged node.area (e.timeline.key .domain)
      ((w₁.queue node.area (e.timeline.key .domain)).drop count)) := .same hw rfl rfl
  have hstream : ∀ {d : Entity S}, d.timeline.stream = e.timeline.stream →
      Paces routes stream n (d.timeline.stream.key .domain) := fun h => h ▸ hpaces
  cases hcourse with
  | empty => exact ⟨hopen, fun _ _ => ⟨hopen.anchored _ he, rfl⟩⟩
  | together _ hmerge hscheduled =>
    obtain ⟨hmerged, hend⟩ := (merged_of_settleBatch hmerge).spaces hn hpaces hopen.spaced
      (hopen.anchored _ he) hclean
    have hlast := Spaces.idle hmerged.spaced (idle_scheduled hscheduled)
    obtain ⟨hend, hstream'⟩ := hend _ rfl
    exact ⟨(hopen.trans hmerged).trans hlast, fun _ _ => ⟨hlast.anchored _ hend, hstream'⟩⟩
  | alone hmerge _ _ hload hid hagain hscheduled =>
    have hended := merged_of_settleBatch hmerge
    have hmerged := (hended.spaces hn hpaces hopen.spaced (hopen.anchored _ he) hclean).1
    have htried := spaces_alone hload hid hagain hn (hstream hended.stream_eq) hmerged.spaced
    have hlast := Spaces.idle htried.spaced (idle_scheduled hscheduled)
    exact ⟨((hopen.trans hmerged).trans htried).trans hlast, nofun⟩
  | refused _ _ hmerge =>
    have hmerged := ((merged_of_settleBatch hmerge).spaces hn hpaces hopen.spaced
      (hopen.anchored _ he) hclean).1
    exact ⟨hopen.trans hmerged, nofun⟩
  | returned _ hmerge halone _ hrequeue hschedule =>
    have hended := merged_of_settleBatch hmerge
    have hmerged := (hended.spaces hn hpaces hopen.spaced (hopen.anchored _ he) hclean).1
    have htried := spaces_unmerged halone hn (hstream hended.stream_eq) hmerged.spaced
    obtain ⟨-, rfl⟩ := runs_requeue.1 hrequeue
    obtain rfl := runs_schedule hschedule
    exact ⟨((hopen.trans hmerged).trans htried).trans (.same htried.spaced rfl rfl), nofun⟩

/-- So it is with a batch that is staged, or merged with what was staged before. -/
theorem spaces_weak
    (h : Resolves ((node.weak (site opened)).resolve routes.lift batch commitId headers) e w r
      e' w') (hn : 1 ≤ n) (hpaces : Paces routes stream n (e.timeline.key .domain))
    (hw : w.Spaced stream n) (he : e.timeline.Anchored w.log) (hclean : e.timeline.dirty = false) :
    Spaces stream n w w' ∧ ∀ resolution, r = .ok resolution →
      e'.timeline.Anchored w'.log ∧ e'.timeline.stream = e.timeline.stream := by
  obtain ⟨age, w₁, hage, hcourse⟩ := WeakResolver.course_of_resolve (granting_weak node opened) h
  obtain ⟨-, rfl⟩ := runs_age hage
  rcases hcourse with ⟨-, hmerge⟩ | ⟨delay, w₂, hadd, hschedule, -, -, rfl⟩
  · exact spaces_resolveStaged hmerge hn hpaces hw he hclean
  · obtain ⟨-, i, id, received, rfl⟩ := runs_add hadd
    obtain rfl := runs_schedule hschedule
    exact ⟨.same hw rfl rfl, fun _ _ => ⟨he.congr rfl, rfl⟩⟩

/-- Every strategy keeps to this that checks the version of what it stores. -/
theorem spaces_resolve {strategy : ConflictStrategy} (hstrategy : strategy ≠ .ignore)
    (h : Resolves ((node.resolver (site opened) strategy).resolve routes.lift batch commitId
      headers) e w r e' w') (hn : 1 ≤ n) (hpaces : Paces routes stream n (e.timeline.key .domain))
    (hw : w.Spaced stream n) (he : e.timeline.Anchored w.log) (hclean : e.timeline.dirty = false) :
    Spaces stream n w w' ∧ ∀ resolution, r = .ok resolution →
      e'.timeline.Anchored w'.log ∧ e'.timeline.stream = e.timeline.stream := by
  cases strategy with
  | throw =>
    obtain ⟨rfl, rfl, rfl⟩ := resolves_throw.1 h
    exact ⟨.refl hw, nofun⟩
  | discard =>
    obtain ⟨rfl, rfl, rfl⟩ := resolves_pure.1 h
    exact ⟨.refl hw, fun _ _ => ⟨he, rfl⟩⟩
  | ignore => exact absurd rfl hstrategy
  | resolveStrongly => exact (merged_of_settleBatch h).spaces hn hpaces hw he hclean
  | resolveWeakly => exact spaces_weak h hn hpaces hw he hclean

/-- A commit stores what is close to a snapshot, and leaves an entity under the same domain key that
can be committed again. -/
theorem Committed.spaces {r : Except CommitError CommitOutcome}
    (h : Committed node opened routes.lift e commitId headers w (r, e') w')
    (hstrategy : node.settings.strategy ≠ .ignore) (hn : 1 ≤ n)
    (hpaces : Paces routes stream n (e.timeline.key .domain)) (hw : w.Spaced stream n)
    (he : e.timeline.Anchored w.log) :
    Spaces stream n w w' ∧ e'.timeline.Anchored w'.log ∧
      e'.timeline.key .domain = e.timeline.key .domain := by
  have hkey : ∀ e₁ : Entity S, e.staged (routes.lift : Routes (StateM World) S) w.wall = .ok e₁ →
      e₁.timeline.key .domain = e.timeline.key .domain := by
    intro e₁ hstaged
    rw [Timeline.key, Timeline.key, (continues_staged hstaged).1.stream]
  cases h with
  | clean | unrecorded => exact ⟨.refl hw, he, rfl⟩
  | held _ hstaged => exact ⟨.refl hw, he.of_staged hstaged, hkey _ hstaged⟩
  | @written e₁ _ _ _ hstaged hwrote =>
    have h₁ := he.of_staged hstaged
    cases hwrote with
    | @stored i log hversion hstored =>
      have hlogged := Spaces.stored hw i hstored h₁ hversion fun hk hpending => by
        refine Entity.within_staged hn (hpaces ((hkey _ hstaged).symm.trans hk)) he ?_ hstaged
        rcases Entity.staged_eq_ok hstaged with ⟨-, rfl⟩ | ⟨-, _, memento, -, -, rfl⟩ <;>
          exact hpending
      have hsettled := hstored.anchored_settle hw.numbered hw.recorded h₁ hversion
      exact ⟨hlogged.trans (.remember hlogged.spaced node.cache hsettled rfl), hsettled,
        hkey e₁ hstaged⟩
  | @conflict e₁ _ _ _ hstaged _ _ hresolve =>
    have h₁ := he.of_staged hstaged
    have hforgot := Spaces.forget hw node.cache (e₁.timeline.key .domain)
    have hviewed := hforgot.trans (.viewed hforgot.spaced node.cache e₁.timeline.stream)
    rcases runs_resolveConflict hresolve with ⟨_, -, -, rfl, rfl⟩ |
      ⟨fresh, result, d, hfound, hresolves, hend⟩
    · exact ⟨hviewed, hviewed.anchored _ h₁, hkey _ hstaged⟩
    -- The batch is merged into what is loaded afresh; the entity at hand no longer matters.
    · obtain ⟨hloaded, hfresh, hclean⟩ := hforgot.spaced.loaded hfound
      have hsame : fresh.timeline.key .domain = e.timeline.key .domain :=
        hloaded.trans (hkey _ hstaged)
      have hpaces' : Paces routes stream n (fresh.timeline.key .domain) := hsame ▸ hpaces
      obtain ⟨hresolved, hmerged⟩ := spaces_resolve hstrategy hresolves hn hpaces' hviewed.spaced
        (hfresh.congr (by simp)) hclean
      refine ⟨hviewed.trans hresolved, ?_⟩
      rcases hend with ⟨resolution, hok, -, rfl⟩ | ⟨_, -, -, rfl⟩
      · obtain ⟨hanchored, hstream⟩ := hmerged resolution hok
        refine ⟨hanchored, Eq.trans ?_ hsame⟩
        rw [Timeline.key, Timeline.key, hstream]
      · exact ⟨hresolved.anchored _ (hviewed.anchored _ h₁), hkey _ hstaged⟩

theorem spaces_handleStaged {other : StreamRef}
    (h : Runs ((node.weak (site opened)).handleStaged routes.lift other) w r w') (hn : 1 ≤ n)
    (hpaces : Paces routes stream n (other.key .domain)) (hw : w.Spaced stream n) :
    Spaces stream n w w' := by
  have hviewed := Spaces.viewed hw node.cache other
  rcases runs_handleStaged h with ⟨err, -, -, ⟨-, rfl⟩ | hschedule⟩ |
    ⟨e, i, commitId, e', hfound, hresolve⟩
  · exact hviewed
  · exact hviewed.trans (.idle hviewed.spaced (idle_schedule hschedule))
  · have hissued := hviewed.trans (.idle hviewed.spaced (.issued _ i))
    obtain ⟨hkey, hloaded, hclean⟩ := hw.loaded hfound
    exact hissued.trans (spaces_resolveStaged hresolve hn (hkey ▸ hpaces) hissued.spaced
      (hissued.anchored _ hloaded) hclean).1

end World

variable {C : Catalog} {stream : StreamRef} {n : Nat}

/-- Every kind of entity that can have the domain key of the stream asks for a snapshot every `n`
events. -/
def Catalog.Paces (C : Catalog) (stream : StreamRef) (n : Nat) : Prop :=
  ∀ (kind : C.Kind) (other : StreamRef), other.entity = (C.routes kind).entity →
    World.Paces (C.routes kind) stream n (other.key .domain)

namespace Participant

variable {p : Participant C} {opened : Moment} {w w' : World}

theorem spaces_handleAll {streams : List StreamRef} {u : Unit}
    (h : Runs ((p.worker opened).handleAll streams) w u w') (hn : 1 ≤ n)
    (hpaces : C.Paces stream n) (hw : w.Spaced stream n) : World.Spaces stream n w w' := by
  induction streams generalizing w with
  | nil =>
    obtain ⟨-, rfl⟩ := runs_pure.1 h
    exact .refl hw
  | cons other rest ih =>
    obtain ⟨r, w₁, hfirst, hrest⟩ := runs_handleAll_cons h
    suffices hspaces : World.Spaces stream n w w₁ from hspaces.trans (ih hrest hspaces.spaced)
    rcases runs_handle hfirst with ⟨-, rfl⟩ | ⟨kind, hkind, hhandled⟩
    · exact .refl hw
    · have hentity : (C.routes kind).entity = other.entity := by
        simpa using List.find?_some hkind
      exact World.spaces_handleStaged hhandled hn (hpaces kind other hentity.symm) hw

theorem spaces_runDue {count : Nat} (h : Runs (p.worker opened).runDue w count w') (hn : 1 ≤ n)
    (hpaces : C.Paces stream n) (hw : w.Spaced stream n) : World.Spaces stream n w w' := by
  have hcleared := World.Spaces.idle hw (.cleared w p.agenda)
  exact hcleared.trans (spaces_handleAll (runs_runDue h) hn hpaces hcleared.spaced)

end Participant

/-- An entity in use is anchored in the log, under a domain key that its kind can have. -/
structure LiveEntity.Anchored (s : LiveEntity C) (log : EventLog) : Prop where
  timeline : s.entity.timeline.Anchored log
  named : ∃ other : StreamRef, other.entity = (C.routes s.kind).entity ∧
    other.key .domain = s.entity.timeline.key .domain

/-- The operation is not a commit that stores a batch without a check of the version. -/
def Operation.Checked : Operation C → Prop
  | .commit p _ _ _ => p.settings.strategy ≠ .ignore
  | _ => True

namespace Cluster

variable {c c' : Cluster C} {opened wall : Moment} {world : World}

/-- Few events of the stream come after its last snapshot, and every entity in use is anchored. -/
structure Spaced (c : Cluster C) (stream : StreamRef) (n : Nat) : Prop where
  world : c.world.Spaced stream n
  anchored : ∀ s ∈ c.slots, s.Anchored c.world.log

namespace Spaced

protected theorem start (wall : Moment) (stream : StreamRef) (hn : 1 ≤ n) :
    (start wall : Cluster C).Spaced stream n where
  world := .start wall stream hn
  anchored := by simp [Cluster.start]

theorem move (h : c.Spaced stream n) (hw : World.Spaces stream n c.world world)
    {slots : List (LiveEntity C)} (hslots : ∀ s ∈ slots, s ∈ c.slots ∨ s.Anchored world.log)
    (receipts : List Receipt) : (⟨world, slots, receipts⟩ : Cluster C).Spaced stream n where
  world := hw.spaced
  anchored s hs := by
    rcases hslots s hs with hold | hnew
    · exact ⟨hw.anchored _ (h.anchored s hold).timeline, (h.anchored s hold).named⟩
    · exact hnew

/-- A slot is filled with an entity under the domain key that the former one had. -/
theorem move_set (h : c.Spaced stream n) (hw : World.Spaces stream n c.world world) {slot : Nat}
    {kind : C.Kind} {e e' : Entity (C.State kind)} (hslot : c.slots[slot]? = some ⟨kind, e⟩)
    (he : e'.timeline.Anchored world.log)
    (hkey : e'.timeline.key .domain = e.timeline.key .domain) (receipts : List Receipt) :
    (⟨world, c.slots.set slot ⟨kind, e'⟩, receipts⟩ : Cluster C).Spaced stream n := by
  obtain ⟨other, hentity, hother⟩ := (h.anchored _ (List.mem_of_getElem? hslot)).named
  refine h.move hw (fun s hs => ?_) receipts
  rcases List.mem_or_eq_of_mem_set hs with hold | rfl
  · exact .inl hold
  · exact .inr ⟨he, other, hentity, hother.trans hkey.symm⟩

theorem keep {ε : Type} {kind : C.Kind} {found : Except ε (Entity (C.State kind))}
    (h : c.Spaced stream n) (hw : World.Spaces stream n c.world world)
    (hfound : ∀ e, found = .ok e → (⟨kind, e⟩ : LiveEntity C).Anchored world.log) :
    (c.keep kind found world).Spaced stream n := by
  cases found with
  | error err => exact h.move hw (fun _ hs => .inl hs) _
  | ok e =>
    refine h.move hw (fun s hs => ?_) _
    rcases List.mem_append.1 hs with hold | hnew
    · exact .inl hold
    · rw [List.mem_singleton.1 hnew]
      exact .inr (hfound e rfl)

theorem record (h : c.Spaced stream n) (slot : Nat)
    {f : (kind : C.Kind) → Entity (C.State kind) → Stamp →
      Except RouteError (Entity (C.State kind))}
    (hf : ∀ kind e stamp e', f kind e stamp = .ok e' →
      e'.timeline.stream = e.timeline.stream ∧
        ∀ log, e.timeline.Anchored log → e'.timeline.Anchored log) :
    (c.record slot f).Spaced stream n := by
  unfold Cluster.record
  cases hslot : c.slots[slot]? with
  | none => exact h
  | some s =>
    obtain ⟨kind, e⟩ := s
    obtain ⟨stamp, world, hstamp⟩ := Runs.total (World.surroundings World.cell).stamp c.world
    obtain ⟨i, rfl⟩ := World.runs_stamp hstamp
    have hissued := World.Spaces.idle h.world (.issued c.world i)
    simp only [hstamp.run_eq]
    cases he : f kind e stamp with
    | error err => exact h.move hissued (fun _ hs => .inl hs) _
    | ok e' =>
      obtain ⟨hstream, hanchored⟩ := hf kind e stamp e' he
      have hold := hissued.anchored _ (h.anchored _ (List.mem_of_getElem? hslot)).timeline
      refine h.move_set hissued hslot (hanchored _ hold) ?_ _
      rw [Timeline.key, Timeline.key, hstream]

private theorem loaded (h : c.Spaced stream n) {node : Node} {kind : C.Kind} {other : StreamRef}
    {found : Except LoadError (Entity (C.State kind))}
    (hl : Runs (loadEntity (node.store (World.site opened)) (C.routes kind).lift other).run c.world
      found world) (hentity : other.entity = (C.routes kind).entity) :
    (c.keep kind found world).Spaced stream n := by
  obtain ⟨rfl, rfl⟩ := World.runs_loadEntity.1 hl
  have hviewed := World.Spaces.viewed h.world node.cache other
  refine h.keep hviewed fun e he => ?_
  obtain ⟨hkey, hanchored, -⟩ := h.world.loaded he
  exact ⟨hviewed.anchored _ hanchored, other, hentity, hkey.symm⟩

private theorem made (h : c.Spaced stream n) {kind : C.Kind} {other : StreamRef}
    (hentity : other.entity = (C.routes kind).entity) :
    (c.keep kind (Entity.ofTimeline ((C.routes kind).lift : Routes (StateM World) (C.State kind))
      (.empty other)) c.world).Spaced stream n := by
  refine h.keep (.refl h.world) fun e he => ?_
  have ht := Entity.timeline_ofTimeline he
  refine ⟨?_, other, hentity, ?_⟩
  · rw [ht]
    exact .empty h.world.numbered h.world.recorded other
  · rw [ht]
    rfl

private theorem idle (h : c.Spaced stream n) (hi : c.world.Idle world) :
    Spaced { c with world } stream n :=
  h.move (.idle h.world hi) (fun _ hs => .inl hs) _

end Spaced

theorem Moves.spaced {operation : Operation C} (hm : c.Moves opened operation c') (hn : 1 ≤ n)
    (hpaces : C.Paces stream n) (hchecked : operation.Checked) (h : c.Spaced stream n) :
    c'.Spaced stream n := by
  cases hm with
  | idle => exact h
  | loaded hload hentity => exact h.loaded hload hentity
  | made hentity => exact h.made hentity
  | applied =>
    exact h.record _ fun _ _ _ _ he =>
      ⟨(Timeline.Continues.of_apply he).stream, fun _ hanchored => hanchored.of_apply he⟩
  | raised =>
    exact h.record _ fun _ _ _ _ he =>
      ⟨(Timeline.Continues.of_raise he).stream, fun _ hanchored => hanchored.of_raise he⟩
  | committed hslot hcommit =>
    have hold := h.anchored _ (List.mem_of_getElem? hslot)
    obtain ⟨other, hentity, hkey⟩ := hold.named
    obtain ⟨hspaces, hanchored, hsame⟩ := (World.committed_of_runs hcommit).spaces hchecked hn
      (hkey ▸ hpaces _ other hentity) h.world hold.timeline
    exact h.move_set hspaces hslot hanchored hsame _
  | handled hdue =>
    exact h.move (Participant.spaces_runDue hdue hn hpaces h.world) (fun _ hs => .inl hs) _
  | frozen hfreeze =>
    obtain ⟨data, rfl⟩ := World.runs_freeze hfreeze
    exact h.idle (.annotated ..)
  | released hunfreeze =>
    obtain ⟨-, data, rfl⟩ := World.runs_unfreeze hunfreeze
    exact h.idle (.annotated ..)
  | advanced => exact h.idle ⟨rfl, rfl, rfl⟩
  | set => exact h.idle ⟨rfl, rfl, rfl⟩
  | shuffled => exact h.idle (.shuffled ..)

/-- Nor does any number of them, in any order. -/
theorem spaced_run (opened : Moment) (hn : 1 ≤ n) (hpaces : C.Paces stream n)
    {operations : List (Operation C)} (hchecked : ∀ operation ∈ operations, operation.Checked)
    (h : c.Spaced stream n) : (c.run opened operations).Spaced stream n := by
  induction operations generalizing c with
  | nil => exact h
  | cons operation rest ih =>
    obtain ⟨hfirst, hothers⟩ := List.forall_mem_cons.1 hchecked
    exact ih hothers ((moves_step opened c operation).spaced hn hpaces hfirst h)

/-- If every kind of entity that can have the key of a stream asks for a snapshot every `n` events,
fewer than `n` domain events come after the last snapshot that is recorded for the stream, or there
are fewer than `n` at all: whoever committed and handled what, in whatever order, from however
outdated an entity. -/
theorem few_since_snapshot (opened wall : Moment) {n : Nat} (hn : 1 ≤ n) {stream : StreamRef}
    (hpaces : C.Paces stream n) {operations : List (Operation C)}
    (hchecked : ∀ operation ∈ operations, operation.Checked) :
    let log := ((start wall : Cluster C).run opened operations).world.log
    match (log.events (stream.key .snapshot)).getLast? with
    | some record => ∃ s : Snapshot, record.payload = s.toJson ∧
        ((log.events (stream.key .domain)).filter fun e => s.version < e.version).length < n
    | none => (log.events (stream.key .domain)).length < n := by
  intro log
  have hspaced := (spaced_run opened hn hpaces hchecked (.start wall stream hn)).world
  have hnear : log.version (stream.key .domain) < log.mark stream + n := hspaced.near
  have hversion : log.version (stream.key .domain) =
      (log.events (stream.key .domain)).length - 1 := hspaced.numbered.version_eq _
  rw [hversion] at hnear
  unfold EventLog.mark at hnear
  cases hl : (log.events (stream.key .snapshot)).getLast? with
  | none =>
    simp only [hl, newStreamVersion] at hnear ⊢
    omega
  | some record =>
    obtain ⟨s, hpay, hlow, -⟩ := hspaced.recorded stream record (List.mem_of_getLast? hl)
    simp only [hl, hpay, Snapshot.versionIn_toJson, newStreamVersion] at hnear hlow ⊢
    refine ⟨s, rfl, ?_⟩
    have hnumbered : Numbered 0 (log.events (stream.key .domain)) := hspaced.numbered _
    have hlater : (log.events (stream.key .domain)).filter (fun e => s.version < e.version) =
        (log.events (stream.key .domain)).drop (s.version + 1 - 0).toNat :=
      hnumbered.filter_le (by omega)
    rw [hlater, List.length_drop]
    omega

/-- Four steps are stored in two commits, the second one with a snapshot. A step that knows nothing
of them is staged and merged a minute later. -/
def stepsBehindSnapshot : List (Operation tallies) :=
  [.newEntity (teller 0) () "t-1", .newEntity (teller 1) () "t-1", stepBy 0 1, stepBy 0 2,
    .commit (teller 0) 0 (.numbered 100) ∅, stepBy 0 3, stepBy 0 4,
    .commit (teller 0) 0 (.numbered 101) ∅, stepBy 1 5, .commit (teller 1) 1 (.numbered 102) ∅,
    .advance (.ofSeconds 60), .runDue (teller 1)]

theorem few_stepsBehindSnapshot :
    let log := ((start .epoch).run .epoch stepsBehindSnapshot).world.log
    let events := log.events (tallyStream.key .domain)
    events.length = 5 ∧
      ∃ record, (log.events (tallyStream.key .snapshot)).getLast? = some record ∧
        ∃ s : Snapshot, record.payload = s.toJson ∧
          (events.filter fun e => s.version < e.version).length < 3 := by
  intro log events
  have hpaces : tallies.Paces tallyStream 3 := fun _ _ _ _ => rfl
  have hchecked : ∀ operation ∈ stepsBehindSnapshot, operation.Checked := by
    simp [stepsBehindSnapshot, stepBy, Operation.Checked, teller]
  have hfew := few_since_snapshot .epoch .epoch (by decide) hpaces hchecked
  have hsome : (log.events (tallyStream.key .snapshot)).getLast?.isSome = true := by decide +kernel
  obtain ⟨record, hrecord⟩ := Option.isSome_iff_exists.1 hsome
  refine ⟨by decide +kernel, record, hrecord, ?_⟩
  simpa only [events, log, hrecord] using hfew

end Cluster

end Chronicle
