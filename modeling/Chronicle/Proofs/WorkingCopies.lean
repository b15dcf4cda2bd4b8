import Mathlib.Data.List.Perm.Basic
import Chronicle.Event.Timeline
import Chronicle.Proofs.Numbering

/-!
# Sound timelines

A timeline is sound if its pending parts fit together: the pending domain events carry the
versions after the settled one, every pending out-of-band event names a channel that is known,
and a pending snapshot is neither behind the settled version nor ahead of the pending events. Every
operation keeps a timeline sound, and in a sound one the batches by channel hold each pending
out-of-band event once.
-/

namespace Chronicle.Timeline

/-- The pending parts of the timeline fit together. -/
structure Sound (t : Timeline) : Prop where
  next : t.nextVersion = t.version + t.pending.length
  numbered : Numbered (t.version + 1) t.pending
  domain : ∀ e ∈ t.pending, e.lane = .domain
  oobs : ∀ e ∈ t.pendingOobs, e.lane = .oob ∧ ∃ c ∈ t.channels, e.channel? = some c.id
  channels : (t.channels.map Channel.id).Nodup
  snapshot : ∀ s ∈ t.pendingSnapshot, t.version ≤ s.version ∧ s.version ≤ t.nextVersion

theorem dirty_eq_false {t : Timeline} :
    t.dirty = false ↔ t.pending = [] ∧ t.pendingOobs = [] ∧ t.pendingSnapshot = none := by
  simp [dirty, and_assoc]

theorem batch_eq_nil {t : Timeline} (h : t.dirty = false) : t.batch = [] := by
  obtain ⟨hpending, hoobs, -⟩ := dirty_eq_false.1 h
  rw [batch, hpending, hoobs]
  rfl

theorem sound_ofHistory (stream : StreamRef) (settled : List Event)
    (snapshot : Option Snapshot) : (ofHistory stream settled snapshot).Sound where
  next := by simp [ofHistory]
  numbered := trivial
  domain := by simp [ofHistory]
  oobs := by simp [ofHistory]
  channels := by simp [ofHistory]
  snapshot := by simp [ofHistory]

namespace Sound

variable {t : Timeline}

theorem version_le (h : t.Sound) : t.version ≤ t.nextVersion := by
  have := h.next
  omega

theorem add (h : t.Sound) (stamp : Stamp) (kind : String) (payload : Json)
    (headers : Headers) : (t.add stamp kind payload headers).Sound where
  next := by
    have := h.next
    simp only [nextVersion_add, pending_add, List.length_append, List.length_singleton]
    change t.nextVersion + 1 = t.version + _
    omega
  numbered := by
    have hn : t.version + 1 + t.pending.length = t.nextVersion + 1 := by
      have := h.next
      omega
    rw [pending_add, numbered_append]
    exact ⟨h.numbered, by simp [Numbered, draft, Timeline.add, hn]⟩
  domain := by
    intro e he
    rcases List.mem_append.1 he with he | he
    · exact h.domain e he
    · rw [List.mem_singleton.1 he]
      rfl
  oobs := h.oobs
  channels := h.channels
  snapshot := by
    intro s hs
    obtain ⟨hlow, hhigh⟩ := h.snapshot s hs
    rw [nextVersion_add]
    exact ⟨hlow, by omega⟩

theorem addOob (h : t.Sound) (stamp : Stamp) (kind : String) (payload : Json)
    (channel : String) (headers : Headers) :
    (t.addOob stamp kind payload channel headers).Sound where
  next := h.next
  numbered := h.numbered
  domain := h.domain
  oobs := by
    -- A channel that is known stays known.
    have hsub : ∀ c ∈ t.channels, c ∈ (t.addOob stamp kind payload channel headers).channels := by
      intro c hc
      simp only [Timeline.addOob]
      split
      · exact hc
      · exact List.mem_append_left _ hc
    intro e he
    rcases List.mem_append.1 he with he | he
    · obtain ⟨hl, c, hc, hce⟩ := h.oobs e he
      exact ⟨hl, c, hsub c hc, hce⟩
    · rw [List.mem_singleton.1 he]
      refine ⟨rfl, ?_⟩
      by_cases hk : t.channels.any (·.id == channel)
      · obtain ⟨c, hc, hce⟩ := List.any_eq_true.1 hk
        exact ⟨c, hsub c hc, by simp [Event.channel?, draft, ← beq_iff_eq.1 hce]⟩
      · refine ⟨Channel.ofHeaders channel (headers.insert Headers.oob channel), ?_, ?_⟩
        · simp only [Timeline.addOob, if_neg hk]
          exact List.mem_append_right _ (List.mem_singleton_self _)
        · simp [Event.channel?, draft, Channel.ofHeaders]
  channels := by
    simp only [Timeline.addOob]
    split
    · exact h.channels
    · rename_i hk
      rw [List.map_append, List.nodup_append]
      refine ⟨h.channels, by simp, ?_⟩
      intro x hx y hy hxy
      obtain ⟨c, hc, rfl⟩ := List.mem_map.1 hx
      simp only [List.map_cons, List.map_nil, List.mem_singleton] at hy
      exact hk (List.any_eq_true.2 ⟨c, hc, by simp [hxy, hy, Channel.ofHeaders]⟩)
  snapshot := h.snapshot

theorem addSnapshot (h : t.Sound) (time : Moment) (memento : Json) :
    (t.addSnapshot time memento).Sound where
  next := h.next
  numbered := h.numbered
  domain := h.domain
  oobs := h.oobs
  channels := h.channels
  snapshot := by
    rintro s ⟨⟩
    exact ⟨h.version_le, Int.le_refl _⟩

theorem settle (h : t.Sound) : t.settle.Sound where
  next := by simp [Timeline.settle]
  numbered := trivial
  domain := by simp [Timeline.settle]
  oobs := by simp [Timeline.settle]
  channels := h.channels
  snapshot := by simp [Timeline.settle]

theorem revert (h : t.Sound) : t.revert.Sound where
  next := by simp [Timeline.revert]
  numbered := trivial
  domain := by simp [Timeline.revert]
  oobs := by simp [Timeline.revert]
  channels := h.channels
  snapshot := by simp [Timeline.revert]

end Sound

theorem mem_oobBatches {t : Timeline} {batch : String × List Event} (h : batch ∈ t.oobBatches) :
    batch.2 ≠ [] ∧ ∃ channel, batch.1 = t.stream.channelKey channel := by
  obtain ⟨c, -, hc⟩ := List.mem_filterMap.1 h
  cases ho : t.oobsOf c.id with
  | nil => simp [ho] at hc
  | cons e es =>
    simp only [ho, Option.some.injEq] at hc
    rw [← hc]
    exact ⟨List.cons_ne_nil e es, c.id, rfl⟩

private theorem flatMap_oobsOf_perm (cs : List Channel) (hn : (cs.map Channel.id).Nodup)
    (events : List Event) (h : ∀ e ∈ events, ∃ c ∈ cs, e.channel? = some c.id) :
    (cs.flatMap fun c => events.filter fun e => e.channel? == some c.id).Perm events := by
  induction cs generalizing events with
  | nil =>
    cases events with
    | nil => simp
    | cons e _ => simpa using h e
  | cons c cs ih =>
    simp only [List.map_cons, List.nodup_cons] at hn
    have hrest := ih hn.2 (events.filter fun e => !(e.channel? == some c.id)) (by
      intro e he
      obtain ⟨he, hne⟩ := List.mem_filter.1 he
      obtain ⟨d, hd, hde⟩ := h e he
      rcases List.mem_cons.1 hd with rfl | hd
      · simp [hde] at hne
      · exact ⟨d, hd, hde⟩)
    have hsame : ∀ d ∈ cs, (events.filter fun e => !(e.channel? == some c.id)).filter
        (fun e => e.channel? == some d.id) = events.filter fun e => e.channel? == some d.id := by
      intro d hd
      rw [List.filter_filter]
      apply List.filter_congr
      intro e _
      have hcd : d.id ≠ c.id := fun hcd => hn.1 (hcd ▸ List.mem_map_of_mem hd)
      by_cases he : e.channel? = some d.id
      · simp [he, hcd]
      · simp [he]
    rw [List.flatMap_cons, ← List.flatMap_congr hsame]
    exact (hrest.append_left _).trans (List.filter_append_perm _ _)

/-- The batches by channel hold each pending out-of-band event once. -/
theorem Sound.oobBatches_perm {t : Timeline} (h : t.Sound) :
    (t.oobBatches.flatMap Prod.snd).Perm t.pendingOobs := by
  have hb : t.oobBatches.flatMap Prod.snd = t.channels.flatMap fun c => t.oobsOf c.id := by
    unfold oobBatches
    induction t.channels with
    | nil => rfl
    | cons c cs ih =>
      cases hc : t.oobsOf c.id with
      | nil => simp [hc, ih]
      | cons e es => simp [hc, ih]
  rw [hb]
  exact flatMap_oobsOf_perm t.channels h.channels t.pendingOobs fun e he => (h.oobs e he).2

end Chronicle.Timeline
