import Mathlib.Data.List.Induction
import Mathlib.Data.List.Infix
import Chronicle.Proofs.Loading

/-!
# When the cache of a sole writer is fresh

One client uses one stream store, the only writer of its log. It keeps every copy of a timeline
it ever had and may edit, store or verify any of them at any time. The cache can go stale in one
way only: a checked write of a copy without pending domain events passes no check, and caches
the copy even if the stream has moved on. As long as every such copy is at the version of its
stream, each fetch answers with the current version, and each write of a fetched timeline goes
through; after the first one that is not, a fetch answers with an old version.
-/

namespace Chronicle

/-- A change to what is pending in a timeline. -/
inductive Edit where
  | add (stamp : Stamp) (kind : String) (payload : Json) (headers : Headers)
  | addOob (stamp : Stamp) (kind : String) (payload : Json) (channel : String)
      (headers : Headers)
  | addSnapshot (taken : { time : Moment // time.Legible }) (memento : Json)
  | revert

def Edit.apply : Edit → Timeline → Timeline
  | .add stamp kind payload headers, t => t.add stamp kind payload headers
  | .addOob stamp kind payload channel headers, t => t.addOob stamp kind payload channel headers
  | .addSnapshot taken memento, t => t.addSnapshot taken memento
  | .revert, t => t.revert

/-- A request of a client. Copies are named by their place among all copies it ever had. -/
inductive Request where
  | fetch (stream : StreamRef)
  | create (stream : StreamRef)
  | edit (copy : Nat) (edit : Edit)
  | write (copy : Nat) (commitId : Uuid) (headers : Headers)
  | append (copy : Nat) (commitId : Uuid) (headers : Headers)
  | verify (copy : Nat)

/-- A client of a stream store: the world, and every copy of a timeline it ever had. -/
structure Client where
  world : World
  copies : List Timeline

namespace Client

variable {α : Type}

def start (wall : Moment) : Client := ⟨.start wall, []⟩

/-- The copies that an operation of a store adds, if it succeeds. -/
def gained (copies : α → List Timeline) : Except StoreError α → List Timeline
  | .ok a => copies a
  | .error _ => []

def after (c : Client) (x : StateM World (Except StoreError α)) (copies : α → List Timeline) :
    Client :=
  let (r, world) := x.run c.world
  ⟨world, c.copies ++ gained copies r⟩

/-- The client after a request. A request for a copy that it does not have does nothing. -/
def step (n : Node) (opened : Moment) (c : Client) : Request → Client
  | .fetch stream => c.after ((n.store (World.site opened)).fetch stream) fun t => [t]
  | .create stream => { c with copies := c.copies ++ [.empty stream] }
  | .edit copy edit =>
    match c.copies[copy]? with
    | some t => { c with copies := c.copies ++ [edit.apply t] }
    | none => c
  | .write copy commitId headers =>
    match c.copies[copy]? with
    | some t => c.after ((n.store (World.site opened)).write commitId t headers) fun _ => [t.settle]
    | none => c
  | .append copy commitId headers =>
    match c.copies[copy]? with
    | some t =>
      c.after ((n.store (World.site opened)).append commitId t headers) fun _ => [t.settle]
    | none => c
  | .verify copy =>
    match c.copies[copy]? with
    | some t => c.after ((n.store (World.site opened)).verify t) fun _ => []
    | none => c

def run (n : Node) (opened : Moment) (c : Client) (requests : List Request) : Client :=
  requests.foldl (step n opened) c

/-- Every fetch answers with the version that the stream has in the log. -/
def Fresh (n : Node) (opened : Moment) (c : Client) : Prop :=
  ∀ stream, ∃ t w, Runs ((n.store (World.site opened)).fetch stream) c.world (.ok t) w ∧
    t.version = c.world.log.version (stream.key .domain)

/-- Every timeline that is fetched, edited and written right after is stored. -/
def Commits (n : Node) (opened : Moment) (c : Client) : Prop :=
  ∀ stream (edits : List Edit) commitId headers, ∃ t w v w',
    Runs ((n.store (World.site opened)).fetch stream) c.world (.ok t) w ∧
      Runs ((n.store (World.site opened)).write commitId
        (edits.foldl (fun t edit => edit.apply t) t) headers) w (.ok v) w'

/-- The request does not write an old copy that has no pending domain events. -/
def Checked (c : Client) : Request → Prop
  | .write copy _ _ => ∀ t, c.copies[copy]? = some t → t.pending = [] →
      t.version = c.world.log.version (t.key .domain)
  | _ => True

theorem run_append (n : Node) (opened : Moment) (c : Client) (xs ys : List Request) :
    c.run n opened (xs ++ ys) = (c.run n opened xs).run n opened ys :=
  List.foldl_append

theorem after_eq {c : Client} {x : StateM World (Except StoreError α)}
    {copies : α → List Timeline} {r : Except StoreError α} {w : World}
    (h : Runs x c.world r w) : c.after x copies = ⟨w, c.copies ++ gained copies r⟩ := by
  rw [after, show x.run c.world = (r, w) from h]

end Client

/-- A copy of a timeline that fits a log: sound, not ahead, and with a snapshot pending only if
it was taken at a legible time. -/
structure Timeline.Fits (t : Timeline) (log : EventLog) : Prop where
  sound : t.Sound
  behind : t.Behind log
  legible : ∀ s ∈ t.pendingSnapshot, s.taken.Legible

namespace Timeline.Fits

variable {log log' : EventLog} {t : Timeline}

protected theorem empty (hn : log.Numbered) (stream : StreamRef) :
    (Timeline.empty stream).Fits log where
  sound := sound_ofHistory ..
  behind := (Based.empty hn stream).toBehind
  legible := by simp [Timeline.empty, ofHistory]

protected theorem mono (h : t.Fits log) (hn : log.Numbered) (hn' : log'.Numbered)
    (hg : log.events (t.key .domain) <+: log'.events (t.key .domain)) : t.Fits log' where
  sound := h.sound
  behind := h.behind.mono hn hn' hg
  legible := h.legible

protected theorem apply (h : t.Fits log) (edit : Edit) : (edit.apply t).Fits log := by
  cases edit with
  | add stamp kind payload headers => exact ⟨h.sound.add .., ⟨h.behind.1, h.behind.2⟩, h.legible⟩
  | addOob stamp kind payload channel headers =>
    exact ⟨h.sound.addOob .., ⟨h.behind.1, h.behind.2⟩, h.legible⟩
  | addSnapshot taken memento =>
    refine ⟨h.sound.addSnapshot .., ⟨h.behind.1, h.behind.2⟩, ?_⟩
    rintro s ⟨⟩
    exact taken.2
  | revert =>
    exact ⟨h.sound.revert, ⟨h.behind.1, h.behind.2⟩, by simp [Edit.apply, Timeline.revert]⟩

protected theorem settle (h : t.Fits log) (hs : Stored log log' t) (hn : log.Numbered) :
    t.settle.Fits log' where
  sound := h.sound.settle
  behind := hs.behind_settle hn h.sound h.behind
  legible := by simp [Timeline.settle]

end Timeline.Fits

/-- A world with one writer: the log is numbered, its snapshots can be read, nobody holds a
stream, and every cached timeline is clean, fits the log and stands under its own key. -/
structure World.Orderly (n : Node) (w : World) : Prop where
  numbered : w.log.Numbered
  recorded : w.log.Recorded fun s => s.taken.Legible
  unfrozen : ∀ key, (w.log.metadataOf key).2.frozen = none
  cached : ∀ key (t : Timeline), (w.cache n.cache)[key]? = some t →
    t.key .domain = key ∧ t.Fits w.log ∧ t.dirty = false

/-- Every cached timeline is at the version of its stream. -/
def World.Current (n : Node) (w : World) : Prop :=
  ∀ key (t : Timeline), (w.cache n.cache)[key]? = some t → t.version = w.log.version key

namespace World

variable {n : Node} {w w' : World} {t : Timeline} {stream : StreamRef}

theorem orderly_start (n : Node) (wall : Moment) : (start wall).Orderly n where
  numbered := EventLog.numbered_empty
  recorded := EventLog.recorded_empty _
  unfrozen key := by simp [start, StreamMetadata.empty]
  cached key t h := by simp [start, cache] at h

theorem current_start (n : Node) (wall : Moment) : (start wall).Current n := by
  intro key t h
  simp [start, cache] at h

namespace Orderly

theorem holder_eq (h : w.Orderly n) (owner : Uuid) (timeout : Span) (key : String) :
    w.holder owner timeout key = none := by
  simp [holder, h.unfrozen key]

protected theorem remember (h : w.Orderly n) (ht : t.Fits w.log) (hd : t.dirty = false) :
    (w.remember n.cache (t.key .domain) t).Orderly n where
  numbered := h.numbered
  recorded := h.recorded
  unfrozen := h.unfrozen
  cached key t' hc := by
    rw [getElem?_cache_remember] at hc
    split at hc
    · rename_i hk
      cases hc
      exact ⟨hk.2.symm, ht, hd⟩
    · exact h.cached key t' hc

protected theorem forget (h : w.Orderly n) (key : String) : (w.forget n.cache key).Orderly n where
  numbered := h.numbered
  recorded := h.recorded
  unfrozen := h.unfrozen
  cached key' t' hc := by
    rw [getElem?_cache_forget] at hc
    split at hc
    · cases hc
    · exact h.cached key' t' hc

protected theorem logged (h : w.Orderly n) (ht : t.Fits w.log) {i : Nat} {log : EventLog}
    (hs : Stored w.log log t) : (w.logged i log).Orderly n where
  numbered := hs.numbered h.numbered
  recorded := hs.recorded h.numbered h.recorded ht.sound ht.behind ht.legible
  unfrozen key := by
    have := h.unfrozen key
    rwa [EventLog.metadataOf, ← hs.metadata] at this
  cached key t' hc := by
    obtain ⟨hk, hfit, hd⟩ := h.cached key t' hc
    exact ⟨hk, hfit.mono h.numbered (hs.numbered h.numbered) (hs.grows _), hd⟩

theorem fits_view (h : w.Orderly n) (hv : w.view n.cache stream = .ok t) :
    t.key .domain = stream.key .domain ∧ t.Fits w.log ∧ t.dirty = false := by
  unfold view at hv
  split at hv
  · rename_i t' hc
    cases hv
    exact h.cached _ _ hc
  · obtain ⟨rfl, -, hsound, hd, -⟩ := EventLog.timeline_spec h.numbered h.recorded hv
    refine ⟨rfl, ⟨hsound, (Timeline.Based.of_timeline h.numbered h.recorded hv).toBehind, ?_⟩, hd⟩
    simp [(Timeline.dirty_eq_false.1 hd).2.2]

theorem viewed (h : w.Orderly n) (stream : StreamRef) : (w.viewed n.cache stream).Orderly n := by
  unfold World.viewed
  split
  · rename_i t hc ht
    have hv : w.view n.cache stream = .ok t := by simp [view, hc, ht]
    obtain ⟨hk, hfit, hd⟩ := h.fits_view hv
    rw [← hk]
    exact h.remember hfit hd
  · exact h

theorem current_viewed (h : w.Orderly n) (hcur : w.Current n) (stream : StreamRef) :
    (w.viewed n.cache stream).Current n := by
  unfold World.viewed
  split
  · rename_i t hc ht
    intro key t' hc'
    rw [getElem?_cache_remember] at hc'
    split at hc'
    · rename_i hk
      cases hc'
      rw [hk.2]
      exact (EventLog.timeline_spec h.numbered h.recorded ht).2.1
    · exact hcur key t' hc'
  · exact hcur

theorem wrote (h : w.Orderly n) (ht : t.Fits w.log) {r : Except StoreError Int}
    (hw : Wrote n w t r w') : w'.Orderly n := by
  cases hw with
  | held hheld => exact h
  | conflict hpending hversion => exact h.forget _
  | stored hversion hstored =>
    exact (h.logged ht hstored).remember (t := t.settle)
      (ht.settle hstored h.numbered) (Timeline.dirty_settle t)

theorem appended (h : w.Orderly n) (ht : t.Fits w.log) {r : Except StoreError Int}
    (hw : Appended n w t r w') : w'.Orderly n := by
  cases hw with
  | held hheld => exact h.forget _
  | stored hstored => exact (h.logged ht hstored).forget _

end Orderly

theorem Current.forget (h : w.Current n) (key : String) : (w.forget n.cache key).Current n := by
  intro key' t hc
  rw [getElem?_cache_forget] at hc
  split at hc
  · cases hc
  · exact h key' t hc

/-- Storing a timeline leaves the other cached timelines at the versions of their streams. -/
theorem Current.of_stored (hcur : w.Current n) (h : w.Orderly n) {log : EventLog}
    (hs : Stored w.log log t) {key : String} {t' : Timeline} (hk : key ≠ t.key .domain)
    (hc : (w.cache n.cache)[key]? = some t') : t'.version = log.version key := by
  obtain ⟨rfl, -, -⟩ := h.cached key t' hc
  rw [Timeline.key, hs.version_of_ne hk]
  exact hcur _ t' hc

theorem Current.wrote (hcur : w.Current n) (h : w.Orderly n) (ht : t.Fits w.log)
    (hold : t.pending = [] → t.version = w.log.version (t.key .domain))
    {r : Except StoreError Int} (hw : Wrote n w t r w') : w'.Current n := by
  cases hw with
  | held hheld => exact hcur
  | conflict hpending hversion => exact hcur.forget _
  | stored hversion hstored =>
    intro key t' hc
    rw [getElem?_cache_remember] at hc
    split at hc
    · rename_i hk
      cases hc
      have hnext := ht.sound.next
      have hnew := hstored.version h.numbered
      change t.nextVersion = _
      rw [log_remember, log_logged, hk.2, hnew, hnext]
      by_cases hp : t.pending = []
      · rw [hold hp]
      · rw [hversion hp]
    · rename_i hk
      exact hcur.of_stored h hstored (fun he => hk ⟨rfl, he⟩) hc

theorem Current.appended (hcur : w.Current n) (h : w.Orderly n) {r : Except StoreError Int}
    (hw : Appended n w t r w') : w'.Current n := by
  cases hw with
  | held hheld => exact hcur.forget _
  | stored hstored =>
    intro key t' hc
    rw [getElem?_cache_forget] at hc
    split at hc
    · cases hc
    · rename_i hk
      exact hcur.of_stored h hstored (fun he => hk ⟨rfl, he⟩) hc

end World

namespace Client

variable {n : Node} {opened : Moment} {c : Client}

structure Orderly (n : Node) (c : Client) : Prop where
  world : c.world.Orderly n
  copies : ∀ t ∈ c.copies, t.Fits c.world.log

theorem orderly_start (n : Node) (wall : Moment) : (start wall).Orderly n where
  world := World.orderly_start n wall
  copies := by simp [start]

/-- What a request comes to, in terms of the world and of the copies afterwards. -/
inductive Serves (n : Node) (c : Client) : Request → Client → Prop where
  | fetched {stream : StreamRef} :
      Serves n c (.fetch stream) ⟨c.world.viewed n.cache stream,
        c.copies ++ gained (fun t => [t]) (c.world.view n.cache stream)⟩
  | created {stream : StreamRef} :
      Serves n c (.create stream) { c with copies := c.copies ++ [.empty stream] }
  | absent {request : Request} : Serves n c request c
  | edited {copy : Nat} {edit : Edit} {t : Timeline} (ht : c.copies[copy]? = some t) :
      Serves n c (.edit copy edit) { c with copies := c.copies ++ [edit.apply t] }
  | wrote {copy : Nat} {commitId : Uuid} {headers : Headers} {t : Timeline}
      {r : Except StoreError Int} {w : World} (ht : c.copies[copy]? = some t)
      (hw : World.Wrote n c.world t r w) :
      Serves n c (.write copy commitId headers) ⟨w, c.copies ++ gained (fun _ => [t.settle]) r⟩
  | appended {copy : Nat} {commitId : Uuid} {headers : Headers} {t : Timeline}
      {r : Except StoreError Int} {w : World} (ht : c.copies[copy]? = some t)
      (hw : World.Appended n c.world t r w) :
      Serves n c (.append copy commitId headers) ⟨w, c.copies ++ gained (fun _ => [t.settle]) r⟩
  | verified {copy : Nat} {t : Timeline} (ht : c.copies[copy]? = some t)
      (hversion : c.world.log.version (t.key .domain) = t.version) : Serves n c (.verify copy) c
  | outdated {copy : Nat} {t : Timeline} (ht : c.copies[copy]? = some t)
      (hversion : c.world.log.version (t.key .domain) ≠ t.version) :
      Serves n c (.verify copy) { c with world := c.world.forget n.cache (t.key .domain) }

theorem serves_step (n : Node) (opened : Moment) (c : Client) (request : Request) :
    c.Serves n request (c.step n opened request) := by
  cases request with
  | fetch stream =>
    obtain ⟨r, w, hr⟩ := Runs.total ((n.store (World.site opened)).fetch stream) c.world
    obtain ⟨rfl, rfl⟩ := World.runs_fetch.1 hr
    rw [step, after_eq hr]
    exact .fetched
  | create stream => exact .created
  | edit copy edit =>
    simp only [step]
    cases ht : c.copies[copy]? with
    | none => exact .absent
    | some t => exact .edited ht
  | write copy commitId headers =>
    simp only [step]
    cases ht : c.copies[copy]? with
    | none => exact .absent
    | some t =>
      obtain ⟨r, w, hr⟩ :=
        Runs.total ((n.store (World.site opened)).write commitId t headers) c.world
      simp only [after_eq hr]
      exact .wrote ht (World.wrote_of_runs hr)
  | append copy commitId headers =>
    simp only [step]
    cases ht : c.copies[copy]? with
    | none => exact .absent
    | some t =>
      obtain ⟨r, w, hr⟩ :=
        Runs.total ((n.store (World.site opened)).append commitId t headers) c.world
      simp only [after_eq hr]
      exact .appended ht (World.appended_of_runs hr)
  | verify copy =>
    simp only [step]
    cases ht : c.copies[copy]? with
    | none => exact .absent
    | some t =>
      obtain ⟨r, w, hr⟩ := Runs.total ((n.store (World.site opened)).verify t) c.world
      obtain ⟨-, rfl⟩ := World.runs_verifyTimeline.1 hr
      have hnone : gained (fun _ => []) r = [] := by cases r <;> rfl
      simp only [after_eq hr, hnone, List.append_nil]
      split
      · rename_i hversion
        exact .verified ht hversion
      · rename_i hversion
        exact .outdated ht hversion

theorem gained_eq_of_mem {α : Type} {copies : α → List Timeline} {r : Except StoreError α}
    {t : Timeline} (h : t ∈ gained copies r) : ∃ a, r = .ok a ∧ t ∈ copies a := by
  cases r with
  | error err => simp [gained] at h
  | ok a => exact ⟨a, rfl, h⟩

/-- A request that leaves an orderly world and a log that has grown keeps the client orderly, if
the copies that it adds fit. -/
theorem Orderly.extend (h : c.Orderly n) {w : World} {copies : List Timeline} (hw : w.Orderly n)
    (hg : ∀ key, c.world.log.events key <+: w.log.events key)
    (hc : ∀ t ∈ copies, t.Fits w.log) : Orderly n ⟨w, c.copies ++ copies⟩ := by
  refine ⟨hw, fun t ht => ?_⟩
  rcases List.mem_append.1 ht with ht | ht
  · exact (h.copies t ht).mono h.world.numbered hw.numbered (hg _)
  · exact hc t ht

theorem Orderly.serves (h : c.Orderly n) {request : Request} {c' : Client}
    (hs : c.Serves n request c') : c'.Orderly n := by
  have hsame : ∀ key, c.world.log.events key <+: c.world.log.events key :=
    fun _ => List.prefix_refl _
  -- Each request hands out one copy at most, so what is left in each case is that this one fits.
  cases hs with
  | absent | verified => exact h
  | @fetched stream =>
    refine h.extend (h.world.viewed stream) (by simp) fun t ht => ?_
    obtain ⟨found, hfound, ht⟩ := gained_eq_of_mem ht
    rw [List.mem_singleton.1 ht, World.log_viewed]
    exact (h.world.fits_view hfound).2.1
  | @created stream =>
    refine h.extend h.world hsame fun t ht => ?_
    rw [List.mem_singleton.1 ht]
    exact .empty h.world.numbered stream
  | @edited copy edit t ht =>
    refine h.extend h.world hsame fun t' ht' => ?_
    rw [List.mem_singleton.1 ht']
    exact (h.copies t (List.mem_of_getElem? ht)).apply edit
  | @wrote copy commitId headers t r w ht hw =>
    have hfits := h.copies t (List.mem_of_getElem? ht)
    refine h.extend (h.world.wrote hfits hw) hw.grows fun t' ht' => ?_
    obtain ⟨v, rfl, ht'⟩ := gained_eq_of_mem ht'
    rw [List.mem_singleton.1 ht']
    cases hw with
    | stored hversion hstored => exact hfits.settle hstored h.world.numbered
  | @appended copy commitId headers t r w ht hw =>
    have hfits := h.copies t (List.mem_of_getElem? ht)
    refine h.extend (h.world.appended hfits hw) hw.grows fun t' ht' => ?_
    obtain ⟨v, rfl, ht'⟩ := gained_eq_of_mem ht'
    rw [List.mem_singleton.1 ht']
    cases hw with
    | stored hstored => exact hfits.settle hstored h.world.numbered
  | outdated => exact ⟨h.world.forget _, h.copies⟩

theorem orderly_run (n : Node) (opened wall : Moment) (requests : List Request) :
    ((start wall).run n opened requests).Orderly n := by
  induction requests using List.reverseRecOn with
  | nil => exact orderly_start n wall
  | append_singleton requests request ih =>
    rw [run_append]
    exact ih.serves (serves_step n opened _ request)

theorem Orderly.current_of_serves (h : c.Orderly n) (hcur : c.world.Current n)
    {request : Request} {c' : Client} (hs : c.Serves n request c') (hr : c.Checked request) :
    c'.world.Current n := by
  cases hs with
  | absent | verified | created | edited => exact hcur
  | fetched => exact h.world.current_viewed hcur _
  | wrote ht hw => exact hcur.wrote h.world (h.copies _ (List.mem_of_getElem? ht)) (hr _ ht) hw
  | appended ht hw => exact hcur.appended h.world hw
  | outdated => exact hcur.forget _

/-- With a current cache, every fetch answers with the current version. -/
theorem Orderly.fresh (h : c.Orderly n) (hcur : c.world.Current n)
    (hv : ∀ key, c.world.log.version key ≤ 0x7fffffffffffffff) : c.Fresh n opened := by
  intro stream
  have hview : ∃ t, c.world.view n.cache stream = .ok t ∧
      t.version = c.world.log.version (stream.key .domain) := by
    -- What is cached is current by assumption, and everything else is read from the log.
    unfold World.view
    cases hc : (c.world.cache n.cache)[stream.key .domain]? with
    | some t => exact ⟨t, rfl, hcur _ t hc⟩
    | none =>
      obtain ⟨t, ht⟩ := EventLog.timeline_of_legible h.world.recorded (hv (stream.key .domain))
      exact ⟨t, ht, (EventLog.timeline_spec h.world.numbered h.world.recorded ht).2.1⟩
  obtain ⟨t, ht, hversion⟩ := hview
  exact ⟨t, _, World.runs_fetch.2 ⟨ht.symm, rfl⟩, hversion⟩

private theorem foldl_apply (edits : List Edit) (t : Timeline) :
    (edits.foldl (fun t edit => edit.apply t) t).version = t.version ∧
      (edits.foldl (fun t edit => edit.apply t) t).stream = t.stream := by
  induction edits generalizing t with
  | nil => exact ⟨rfl, rfl⟩
  | cons edit edits ih =>
    obtain ⟨hv, hs⟩ := ih (edit.apply t)
    rw [List.foldl_cons, hv, hs]
    cases edit <;> exact ⟨rfl, rfl⟩

/-- Every fetch is fresh exactly if every timeline that is fetched, edited and written right
after is stored. -/
theorem Orderly.fresh_iff_commits (h : c.Orderly n) : c.Fresh n opened ↔ c.Commits n opened := by
  have fetched : ∀ {stream t w},
      Runs ((n.store (World.site opened)).fetch stream) c.world (.ok t) w →
        t.key .domain = stream.key .domain ∧ w.Orderly n ∧ w.log = c.world.log := by
    intro stream t w hr
    obtain ⟨hv, hw⟩ := World.runs_fetch.1 hr
    exact ⟨(h.world.fits_view hv.symm).1, hw ▸ h.world.viewed stream, by rw [hw, World.log_viewed]⟩
  constructor
  · intro hf stream edits commitId headers
    obtain ⟨t, w, hr, hversion⟩ := hf stream
    obtain ⟨hk, hw, hlog⟩ := fetched hr
    obtain ⟨hev, hes⟩ := foldl_apply edits t
    obtain ⟨r, w', hwr⟩ := Runs.total ((n.store (World.site opened)).write commitId
      (edits.foldl (fun t edit => edit.apply t) t) headers) w
    cases World.wrote_of_runs hwr with
    | held hheld =>
      rw [hw.holder_eq] at hheld
      cases hheld
    | conflict hpending hne =>
      refine absurd ?_ hne
      rw [Timeline.key, hes, ← Timeline.key, hk, hlog, hev, hversion]
    | stored hversion hstored => exact ⟨t, w, _, _, hr, hwr⟩
  · intro hc stream
    -- A step that is added to the fetched copy makes the write check the version.
    let stamp : Stamp := ⟨.numbered 0, c.world.wall⟩
    obtain ⟨t, w, v, w', hr, hwr⟩ := hc stream [.add stamp "" .null ∅] (.numbered 0) ∅
    obtain ⟨hk, hw, hlog⟩ := fetched hr
    refine ⟨t, w, hr, ?_⟩
    cases World.wrote_of_runs hwr with
    | stored hversion hstored =>
      have hv : w.log.version (t.key .domain) = t.version :=
        hversion (by simp [Edit.apply, Timeline.add])
      rw [← hv, hk, hlog]

/-- A checked write of an old copy without pending domain events leaves a stale cache. -/
theorem Orderly.checked_of_fresh_step (h : c.Orderly n) {request : Request}
    (hf : (c.step n opened request).Fresh n opened) : c.Checked request := by
  cases request with
  | write copy commitId headers =>
    intro t hc hp
    have ht := h.copies t (List.mem_of_getElem? hc)
    obtain ⟨r, w, hr⟩ :=
      Runs.total ((n.store (World.site opened)).write commitId t headers) c.world
    simp only [Client.step, hc, after_eq hr] at hf
    cases World.wrote_of_runs hr with
    | held hheld =>
      rw [h.world.holder_eq] at hheld
      cases hheld
    | conflict hpending hversion => exact absurd hp hpending
    | stored hversion hstored =>
      obtain ⟨t', w', hfetch, hcurrent⟩ := hf t.stream
      obtain ⟨hv, -⟩ := World.runs_fetch.1 hfetch
      -- The next fetch answers with the copy that was just stored, so that one is at the version of
      -- the log.
      have hcached : t' = t.settle := by
        simpa [World.view, World.getElem?_cache_remember, Timeline.key] using hv
      have hnext := ht.sound.next
      have hnew := hstored.version h.world.numbered
      rw [hcached] at hcurrent
      change t.nextVersion = _ at hcurrent
      simp only [World.log_remember, World.log_logged, Timeline.key, hp, List.length_nil] at *
      omega
  | fetch stream => trivial
  | create stream => trivial
  | edit copy edit => trivial
  | append copy commitId headers => trivial
  | verify copy => trivial

/-- For a sole writer, every fetch is fresh, and every load, edit and write goes through, exactly
as long as no checked write is of an old copy without pending domain events. -/
theorem fresh_iff_checked (n : Node) (opened wall : Moment) (requests : List Request)
    (hv : ∀ pre, pre <+: requests → ∀ key,
      ((start wall).run n opened pre).world.log.version key ≤ 0x7fffffffffffffff) :
    ((∀ pre, pre <+: requests → ((start wall).run n opened pre).Fresh n opened) ↔
      ∀ pre request, pre ++ [request] <+: requests →
        ((start wall).run n opened pre).Checked request) ∧
    ((∀ pre, pre <+: requests → ((start wall).run n opened pre).Commits n opened) ↔
      ∀ pre request, pre ++ [request] <+: requests →
        ((start wall).run n opened pre).Checked request) := by
  have hiff : (∀ pre, pre <+: requests → ((start wall).run n opened pre).Fresh n opened) ↔
      ∀ pre request, pre ++ [request] <+: requests →
        ((start wall).run n opened pre).Checked request := by
    constructor
    · intro hf pre request hpre
      have hstep := hf _ hpre
      rw [run_append] at hstep
      exact (orderly_run n opened wall pre).checked_of_fresh_step hstep
    · intro hc pre hpre
      have hcur : ((start wall).run n opened pre).world.Current n := by
        induction pre using List.reverseRecOn with
        | nil => exact World.current_start n wall
        | append_singleton pre request ih =>
          rw [run_append]
          exact (orderly_run n opened wall pre).current_of_serves
            (ih ((List.prefix_append _ _).trans hpre)) (serves_step ..) (hc pre request hpre)
      exact (orderly_run n opened wall pre).fresh hcur (hv pre hpre)
  refine ⟨hiff, ?_⟩
  rw [← hiff]
  exact forall₂_congr fun pre _ => (orderly_run n opened wall pre).fresh_iff_commits.symm

def lateNode : Node := ⟨.numbered 0, "default", .standard, 0, 0, 0, none, none⟩

/-- A note is taken on a first copy of a new stream, a step is stored through a second copy, and
then the first copy is stored. -/
def lateNote : List Request :=
  let stream : StreamRef := ⟨"tally", "default", "t-1", []⟩
  [.create stream, .edit 0 (.addOob ⟨.numbered 1, .epoch⟩ "tally.noted" .null "audit" ∅),
    .create stream, .edit 2 (.add ⟨.numbered 2, .epoch⟩ "tally.step" .null ∅),
    .write 3 (.numbered 3) ∅, .write 1 (.numbered 4) ∅]

theorem not_fresh_after_lateNote :
    ¬ ∀ pre, pre <+: lateNote → ((start .epoch).run lateNode .epoch pre).Fresh lateNode .epoch := by
  have hkeys : ∀ pre ∈ lateNote.inits,
      ∀ key ∈ ((start .epoch).run lateNode .epoch pre).world.log.keys,
        ((start .epoch).run lateNode .epoch pre).world.log.version key ≤ 0x7fffffffffffffff := by
    decide +kernel
  have hcopy : (((start .epoch).run lateNode .epoch (lateNote.take 5)).copies[1]?).map
      (fun t => (t.pending, t.version, t.key .domain)) =
        some ([], -1, "DOMAIN-default-[]-tally-t-1") := by
    decide +kernel
  have hlog : ((start .epoch).run lateNode .epoch (lateNote.take 5)).world.log.version
      "DOMAIN-default-[]-tally-t-1" = 0 := by
    decide +kernel
  intro h
  have hc := (fresh_iff_checked lateNode .epoch .epoch lateNote fun pre hpre =>
    EventLog.version_le_of_keys (by decide) (hkeys pre (List.mem_inits _ _ |>.2 hpre))).1.1 h
      (lateNote.take 5) (.write 1 (.numbered 4) ∅) (List.prefix_refl _)
  obtain ⟨t, ht, htv⟩ := Option.map_eq_some_iff.1 hcopy
  simp only [Prod.mk.injEq] at htv
  have hversion := hc t ht htv.1
  rw [htv.2.1, htv.2.2, hlog] at hversion
  cases hversion

end Client

end Chronicle
