import Chronicle.Proofs.Storing

/-!
# What a log holds for a stream

A snapshot that was written is read back with its version and its memento. If no snapshot is
ahead of the domain events of its stream, the timeline that a log holds for a stream is at the
version of the stream. A timeline is based on a log if it is not ahead of it and each of its
settled events stands there at its version, with the same content; a log that grows stays one
that the timeline is based on, and storing a timeline that is based on a log gives another.
-/

namespace Chronicle

namespace Json.Decoder

theorem i64_eq_ok {n v : Int} : i64 (.int n) = .ok v ↔
    v = n ∧ -0x8000000000000000 ≤ n ∧ n ≤ 0x7fffffffffffffff := by
  simp only [i64, integer]
  split
  · simp_all [eq_comm]
  · simp_all

end Json.Decoder

namespace Moment

/-- The written form of a moment is read back as that moment. -/
def Legible (m : Moment) : Prop := decode m.toJson = .ok m

instance (m : Moment) : Decidable m.Legible := inferInstanceAs (Decidable (_ = _))

end Moment

namespace Snapshot

theorem toJson_eq (s : Snapshot) : s.toJson = .object [("memento", s.memento),
    ("taken", s.taken.toJson), ("version", .int s.version)] := by
  have hmv : "memento" < "version" := by decide
  have htv : "taken" < "version" := by decide
  have htm : ¬ "taken" < "memento" := by decide
  simp [toJson, Json.ofFields, Json.insertField, hmv, htv, htm]

theorem decode_toJson (s : Snapshot) :
    decode s.toJson = (do
      let taken ← Moment.decode s.taken.toJson
      let version ← Json.Decoder.i64 (.int s.version)
      .ok ⟨version, s.memento, taken⟩) := by
  rw [toJson_eq]
  simp only [decode, Json.Fields.record, Functor.map, Seq.seq, Json.Fields.both,
    Json.Fields.field, Json.Fields.none]
  cases ht : Moment.decode s.taken.toJson with
  | error err =>
    simp [Json.Fields.check, ht, List.lookup_cons, Json.Decoder.value, Except.map, bind,
      Except.bind]
  | ok taken =>
    cases hv : Json.Decoder.i64 (.int s.version) with
    | error err =>
      simp [Json.Fields.check, ht, hv, List.lookup_cons, Json.Decoder.value, Except.map, bind,
        Except.bind]
    | ok v =>
      simp [Json.Fields.check, ht, hv, List.lookup_cons, Json.Decoder.value, Except.map, bind,
        Except.bind]

theorem of_decode_toJson {s s' : Snapshot} (h : decode s.toJson = .ok s') :
    s'.version = s.version ∧ s'.memento = s.memento := by
  rw [decode_toJson] at h
  cases ht : Moment.decode s.taken.toJson with
  | error err => simp [ht, bind, Except.bind] at h
  | ok taken =>
    cases hv : Json.Decoder.i64 (.int s.version) with
    | error err => simp [ht, hv, bind, Except.bind] at h
    | ok v =>
      obtain ⟨rfl, -⟩ := Json.Decoder.i64_eq_ok.1 hv
      simp only [ht, hv, bind, Except.bind, Except.ok.injEq] at h
      rw [← h]
      exact ⟨rfl, rfl⟩

/-- A snapshot of a version of 64 bits, taken at a legible time, is read back as it was. -/
theorem decode_toJson_of_legible {s : Snapshot} (ht : s.taken.Legible)
    (hlow : -0x8000000000000000 ≤ s.version) (hhigh : s.version ≤ 0x7fffffffffffffff) :
    decode s.toJson = .ok s := by
  rw [decode_toJson, ht, Json.Decoder.i64_eq_ok.2 ⟨rfl, hlow, hhigh⟩]
  rfl

end Snapshot

namespace EventLog

variable {log log' : EventLog} {p : Snapshot → Prop}

theorem Numbered.le_version (h : log.Numbered) (key : String) :
    newStreamVersion ≤ log.version key := by
  rw [h.version_eq]
  simp only [newStreamVersion]
  omega

theorem Numbered.version_le (h : log.Numbered) (h' : log'.Numbered) {key : String}
    (hg : log.events key <+: log'.events key) : log.version key ≤ log'.version key := by
  rw [h.version_eq, h'.version_eq]
  have := hg.length_le
  omega

/-- A bound on the versions of the keys that hold events is one on all versions. -/
theorem version_le_of_keys {bound : Int} (hb : newStreamVersion ≤ bound)
    (h : ∀ key ∈ log.keys, log.version key ≤ bound) (key : String) : log.version key ≤ bound := by
  by_cases hk : key ∈ log.keys
  · exact h key hk
  · simpa [version, events_eq_nil hk] using hb

/-- Every record on a snapshot lane is a snapshot with the property `p` that is not ahead of the
domain events of its stream. -/
def Recorded (log : EventLog) (p : Snapshot → Prop) : Prop :=
  ∀ stream : StreamRef, ∀ record ∈ log.events (stream.key .snapshot), ∃ s : Snapshot,
    record.payload = s.toJson ∧ newStreamVersion ≤ s.version ∧
      s.version ≤ log.version (stream.key .domain) ∧ p s

theorem recorded_empty (p : Snapshot → Prop) : empty.Recorded p := by
  intro stream record h
  simp at h

theorem exists_record {stream : StreamRef} {s : Snapshot}
    (h : log.lastSnapshot stream = .ok (some s)) :
    ∃ record ∈ log.events (stream.key .snapshot), Snapshot.decode record.payload = .ok s := by
  unfold EventLog.lastSnapshot at h
  cases hb : log.readBack (stream.key .snapshot) 1 with
  | nil => simp [hb] at h
  | cons record rest =>
    have hmem : record ∈ log.readBack (stream.key .snapshot) 1 := by simp [hb]
    refine ⟨record, List.mem_reverse.1 (List.mem_of_mem_take hmem), ?_⟩
    cases hd : Snapshot.decode record.payload with
    | error err => simp [hb, hd] at h
    | ok found =>
      simp only [hb, hd, Except.ok.injEq, Option.some.injEq] at h
      rw [h]

theorem Recorded.lastSnapshot (hr : log.Recorded p) {stream : StreamRef} {s : Snapshot}
    (h : log.lastSnapshot stream = .ok (some s)) :
    newStreamVersion ≤ s.version ∧ s.version ≤ log.version (stream.key .domain) := by
  obtain ⟨record, hmem, hd⟩ := exists_record h
  obtain ⟨s', hp, hlow, hhigh, -⟩ := hr stream record hmem
  rw [(Snapshot.of_decode_toJson (hp ▸ hd)).1]
  exact ⟨hlow, hhigh⟩

/-- The history after a snapshot that is not ahead ends at the version of the stream. -/
theorem Numbered.version_ofHistory (hn : log.Numbered) {stream : StreamRef}
    {snapshot : Option Snapshot} {start : Int} (hs : match snapshot with
      | some s => start = s.version + 1 ∧ newStreamVersion ≤ s.version ∧
          s.version ≤ log.version (stream.key .domain)
      | none => start = 0) :
    (Timeline.ofHistory stream (log.read (stream.key .domain) start none) snapshot).version =
      log.version (stream.key .domain) := by
  have hstart : 0 ≤ start := by
    cases snapshot with
    | none => simp [hs]
    | some s =>
      obtain ⟨rfl, hlow, -⟩ := hs
      simp only [newStreamVersion] at hlow
      omega
  have hread : log.read (stream.key .domain) start none =
      (log.events (stream.key .domain)).drop start.toNat := by
    have := (hn (stream.key .domain)).filter_le hstart
    simpa [read] using this
  have hlen := hn.version_eq (stream.key .domain)
  simp only [Timeline.ofHistory, hread, List.getLast?_drop]
  -- With nothing after the snapshot, the snapshot itself is at the version of the stream.
  by_cases hle : (log.events (stream.key .domain)).length ≤ start.toNat
  · rw [if_pos hle]
    cases snapshot with
    | none =>
      simp only [newStreamVersion]
      omega
    | some s =>
      obtain ⟨rfl, hlow, hhigh⟩ := hs
      simp only
      omega
  · rw [if_neg hle]
    cases hl : (log.events (stream.key .domain)).getLast? with
    | none =>
      simp [List.getLast?_eq_none_iff.1 hl] at hle
    | some e => simp [version, hl]

/-- The timeline that a log holds for a stream is clean, at the version of the stream, and
settled on events of the stream. -/
theorem timeline_spec (hn : log.Numbered) (hr : log.Recorded p) {stream : StreamRef}
    {t : Timeline} (h : log.timeline stream = .ok t) :
    t.stream = stream ∧ t.version = log.version (stream.key .domain) ∧ t.Sound ∧
      t.dirty = false ∧ ∀ e ∈ t.settled, e ∈ log.events (stream.key .domain) := by
  obtain ⟨snapshot, hs, rfl⟩ := except_map_eq_ok.1 h
  refine ⟨rfl, hn.version_ofHistory ?_, Timeline.sound_ofHistory .., rfl, ?_⟩
  · cases snapshot with
    | none => rfl
    | some s => exact ⟨rfl, hr.lastSnapshot hs⟩
  · intro e he
    exact List.mem_of_mem_filter he

/-- If every record is of a version of 64 bits and was taken at a legible time, the timeline of
every stream can be loaded. -/
theorem timeline_of_legible (hr : log.Recorded fun s => s.taken.Legible) {stream : StreamRef}
    (hv : log.version (stream.key .domain) ≤ 0x7fffffffffffffff) :
    ∃ t, log.timeline stream = .ok t := by
  suffices h : ∃ snapshot, log.lastSnapshot stream = .ok snapshot by
    obtain ⟨snapshot, h⟩ := h
    exact ⟨_, by rw [timeline, h]; rfl⟩
  unfold lastSnapshot
  cases hb : log.readBack (stream.key .snapshot) 1 with
  | nil => exact ⟨none, rfl⟩
  | cons record rest =>
    have hmem : record ∈ log.events (stream.key .snapshot) := by
      have hb' : record ∈ log.readBack (stream.key .snapshot) 1 := by simp [hb]
      exact List.mem_reverse.1 (List.mem_of_mem_take hb')
    obtain ⟨s, hp, hlow, hhigh, ht⟩ := hr stream record hmem
    simp only [newStreamVersion] at hlow
    refine ⟨some s, ?_⟩
    simp only [hp, Snapshot.decode_toJson_of_legible ht (by omega) (Int.le_trans hhigh hv)]

/-- Stamping events keeps what those of consecutive versions say at each version. -/
theorem exists_stamped {version : Int} {events : List Event}
    (h : Chronicle.Numbered (version + 1) events) (time : Moment) (headers : Headers)
    (ids : List Uuid) : ∀ e ∈ events, ∃ d ∈ stamped version time headers ids events,
      d.version = e.version ∧ d.content = e.content := by
  induction events generalizing version ids with
  | nil => simp
  | cons first rest ih =>
    obtain ⟨hfirst, hrest⟩ := h
    intro e he
    rcases List.mem_cons.1 he with rfl | he
    · exact ⟨_, List.mem_cons_self .., hfirst.symm, rfl⟩
    · obtain ⟨d, hd, hde⟩ := ih hrest ids.tail e he
      exact ⟨d, List.mem_cons_of_mem _ hd, hde⟩

end EventLog

/-- The timeline is not ahead of the log. -/
structure Timeline.Behind (t : Timeline) (log : EventLog) : Prop where
  floor : newStreamVersion ≤ t.version
  version : t.version ≤ log.version (t.key .domain)

/-- The timeline is not ahead of the log, where each of its settled events stands at its version
with the same content. -/
structure Timeline.Based (t : Timeline) (log : EventLog) : Prop extends t.Behind log where
  settled : ∀ e ∈ t.settled, ∃ d ∈ log.events (t.key .domain),
    d.version = e.version ∧ d.content = e.content

namespace Timeline

variable {log log' : EventLog} {t : Timeline}

theorem Behind.mono (h : t.Behind log) (hn : log.Numbered) (hn' : log'.Numbered)
    (hg : log.events (t.key .domain) <+: log'.events (t.key .domain)) : t.Behind log' where
  floor := h.floor
  version := Int.le_trans h.version (hn.version_le hn' hg)

namespace Based

protected theorem empty (hn : log.Numbered) (stream : StreamRef) :
    (Timeline.empty stream).Based log where
  floor := Int.le_refl _
  version := hn.le_version _
  settled := by simp [Timeline.empty, ofHistory]

theorem of_timeline {p : Snapshot → Prop} (hn : log.Numbered) (hr : log.Recorded p)
    {stream : StreamRef} (h : log.timeline stream = .ok t) : t.Based log := by
  obtain ⟨rfl, hv, -, -, hs⟩ := EventLog.timeline_spec hn hr h
  exact ⟨⟨hv ▸ hn.le_version _, hv ▸ Int.le_refl _⟩, fun e he => ⟨e, hs e he, rfl, rfl⟩⟩

protected theorem mono (h : t.Based log) (hn : log.Numbered) (hn' : log'.Numbered)
    (hg : log.events (t.key .domain) <+: log'.events (t.key .domain)) : t.Based log' where
  toBehind := h.toBehind.mono hn hn' hg
  settled e he := by
    obtain ⟨d, hd, hde⟩ := h.settled e he
    exact ⟨d, hg.subset hd, hde⟩

end Based

end Timeline

namespace Stored

variable {log log' : EventLog} {t : Timeline} {p : Snapshot → Prop}

theorem version (hs : Stored log log' t) (hn : log.Numbered) :
    log'.version (t.key .domain) = log.version (t.key .domain) + t.pending.length := by
  obtain ⟨time, headers, ids, he⟩ := hs.domain
  have hlen := congrArg List.length he
  rw [hn.version_eq, (hs.numbered hn).version_eq]
  simp only [List.length_append, EventLog.length_stamped] at hlen
  omega

theorem version_of_ne (hs : Stored log log' t) {stream : StreamRef}
    (hk : stream.key .domain ≠ t.key .domain) :
    log'.version (stream.key .domain) = log.version (stream.key .domain) := by
  simp only [EventLog.version, hs.others stream .domain (by decide) hk]

theorem version_le (hs : Stored log log' t) (hn : log.Numbered) (key : String) :
    log.version key ≤ log'.version key :=
  hn.version_le (hs.numbered hn) (hs.grows key)

/-- What the events under the domain key say, after what is pending was stored. -/
theorem map_entry_domain (hs : Stored log log' t) :
    (log'.events (t.key .domain)).map Event.entry =
      (log.events (t.key .domain)).map Event.entry ++ t.pending.map Event.entry := by
  obtain ⟨time, headers, ids, he⟩ := hs.domain
  rw [he, List.map_append, EventLog.map_entry_stamped]

/-- A record on a snapshot lane was there before, or it is the one that was pending. -/
theorem mem_snapshot (hs : Stored log log' t) {stream : StreamRef} {record : Event}
    (h : record ∈ log'.events (stream.key .snapshot)) :
    record ∈ log.events (stream.key .snapshot) ∨
      stream.key .domain = t.key .domain ∧ ∃ s ∈ t.pendingSnapshot, record.payload = s.toJson := by
  by_cases hk : stream.key .snapshot = t.key .snapshot
  · have hsnap := hs.snapshot
    cases hpend : t.pendingSnapshot with
    | none =>
      simp only [hpend] at hsnap
      rw [hk, hsnap, ← hk] at h
      exact .inl h
    | some s =>
      simp only [hpend] at hsnap
      obtain ⟨new, hpay, hev⟩ := hsnap
      rw [hk, hev, ← hk] at h
      rcases List.mem_append.1 h with hold | hnew
      · exact .inl hold
      · rw [List.mem_singleton.1 hnew]
        exact .inr ⟨StreamRef.key_eq_key hk .domain, s, rfl, hpay⟩
  · rw [hs.others stream .snapshot (by decide) hk] at h
    exact .inl h

theorem recorded (hs : Stored log log' t) (hn : log.Numbered) (hr : log.Recorded p)
    (hsound : t.Sound) (hb : t.Behind log) (hp : ∀ s ∈ t.pendingSnapshot, p s) :
    log'.Recorded p := by
  intro stream record hrec
  rcases hs.mem_snapshot hrec with hold | ⟨hd, s, hpend, hpay⟩
  · obtain ⟨s, hpay, hlow, hhigh, hps⟩ := hr stream record hold
    exact ⟨s, hpay, hlow, Int.le_trans hhigh (hs.version_le hn _), hps⟩
  · obtain ⟨hslow, hshigh⟩ := hsound.snapshot s hpend
    have := hsound.next
    have := hs.version hn
    have := hb.version
    refine ⟨s, hpay, Int.le_trans hb.floor hslow, ?_, hp s hpend⟩
    rw [hd]
    omega

theorem behind_settle (hs : Stored log log' t) (hn : log.Numbered) (hsound : t.Sound)
    (hb : t.Behind log) : t.settle.Behind log' where
  floor := Int.le_trans hb.floor hsound.version_le
  version := by
    have := hs.version hn
    have := hsound.next
    have := hb.version
    change t.nextVersion ≤ log'.version (t.key .domain)
    omega

/-- A timeline that was stored at the version of its stream is based on the log after it. -/
theorem based_settle (hs : Stored log log' t) (hn : log.Numbered) (hsound : t.Sound)
    (hb : t.Based log) (hv : t.pending ≠ [] → log.version (t.key .domain) = t.version) :
    t.settle.Based log' where
  toBehind := hs.behind_settle hn hsound hb.toBehind
  settled := by
    intro e he
    rcases List.mem_append.1 he with he | he
    · exact (hb.mono hn (hs.numbered hn) (hs.grows _)).settled e he
    · obtain ⟨time, headers, ids, hev⟩ := hs.domain
      have hnum := hsound.numbered
      rw [← hv (List.ne_nil_of_mem he)] at hnum
      obtain ⟨d, hd, hde⟩ := EventLog.exists_stamped hnum time headers ids e he
      change ∃ d ∈ log'.events (t.key .domain), _
      rw [hev]
      exact ⟨d, List.mem_append_right _ hd, hde⟩

end Stored

end Chronicle
