import Mathlib.Algebra.GroupWithZero.Nat
import Mathlib.Data.List.Forall2
import Chronicle.Proofs.TornWrites

/-!
# Postings to a log in memory

Each key of a log has two registers, its events and its metadata, and each register has a level:
the version that a writer has to expect. A posting writes to one register. It is granted exactly at
the level, or if it expects nothing, and moves the level on by what it adds; otherwise it is refused
and nothing changes. The level of the events is read off the last one of them, and it is the number
of events less one because all postings give consecutive versions, whatever the versions of the
events that they are handed.

A level never goes back. So of all postings to a register that expect the same level one is granted
at most.
-/

namespace Chronicle

variable {σ : Type}

/-- Storing an event gives it a version, a time and the headers of its commit, and an identifier if
it has none. All else stays. -/
def Event.Filed (e stored : Event) : Prop :=
  ∃ version time commitHeaders id,
    stored = { e with version, time, commitHeaders, id := e.id <|> id }

theorem Numbered.split {start : Int} {xs : List Event} (h : Numbered start xs) (v : Int) :
    ∃ older newer, xs = older ++ newer ∧ (∀ e ∈ older, e.version < v) ∧
      ∀ e ∈ newer, v ≤ e.version := by
  induction xs generalizing start with
  | nil => exact ⟨[], [], rfl, by simp, by simp⟩
  | cons d xs ih =>
    by_cases hd : d.version < v
    · obtain ⟨older, newer, rfl, holder, hnewer⟩ := ih h.2
      refine ⟨d :: older, newer, rfl, fun e he => ?_, hnewer⟩
      rcases List.mem_cons.1 he with rfl | he
      · exact hd
      · exact holder e he
    · refine ⟨[], d :: xs, rfl, by simp, fun e he => ?_⟩
      have := (h.mem_bounds he).1
      have := h.1
      omega

namespace EventLog

variable {log log' log'' : EventLog} {key : String} {events more : List Event}

theorem filed_stamped (version : Int) (time : Moment) (commitHeaders : Headers)
    (ids : List Uuid) (events : List Event) :
    List.Forall₂ Event.Filed events (stamped version time commitHeaders ids events) := by
  induction events generalizing version ids with
  | nil => exact .nil
  | cons e rest ih => exact .cons ⟨_, _, _, _, rfl⟩ (ih _ _)

/-- `log'` holds under the key what `log` held, and behind it the events, each stored under the next
version. -/
def Continued (log log' : EventLog) (key : String) (events : List Event) : Prop :=
  ∃ stored, log'.events key = log.events key ++ stored ∧
    List.Forall₂ Event.Filed events stored ∧ Chronicle.Numbered (log.version key + 1) stored

namespace Continued

theorem of_eq (h : log'.events key = log.events key) : log.Continued log' key [] :=
  ⟨[], by rw [h, List.append_nil], .nil, trivial⟩

theorem append (log : EventLog) (key : String) (events : NonEmptyList Event) (headers : Headers)
    (ids : List Uuid) (time : Moment) :
    log.Continued (log.append key events headers ids time).2 key events.1 :=
  ⟨_, events_append_self .., filed_stamped .., numbered_stamped ..⟩

theorem version (h : log.Continued log' key events) :
    log'.version key = log.version key + events.length := by
  obtain ⟨stored, hevents, hfiled, hnumbered⟩ := h
  rw [hfiled.length_eq]
  obtain rfl | ⟨init, e, rfl⟩ := stored.eq_nil_or_concat
  · rw [version_congr (hevents.trans (List.append_nil _))]
    simp
  · have hlast : (init.concat e).getLast? = some e := by simp
    have hversion := hnumbered.getLast?_version hlast
    rw [EventLog.version, hevents, List.getLast?_append, hlast]
    simp only [Option.some_or]
    omega

theorem trans (h : log.Continued log' key events) (h' : log'.Continued log'' key more) :
    log.Continued log'' key (events ++ more) := by
  have hversion := h.version
  obtain ⟨stored, hevents, hfiled, hnumbered⟩ := h
  obtain ⟨stored', hevents', hfiled', hnumbered'⟩ := h'
  refine ⟨stored ++ stored', ?_, List.rel_append hfiled hfiled', numbered_append.2 ⟨hnumbered, ?_⟩⟩
  · rw [hevents', hevents, List.append_assoc]
  · rw [hversion, Int.add_right_comm] at hnumbered'
    rwa [← hfiled.length_eq]

end Continued

end EventLog

/-- The two registers of a key. -/
inductive Register where
  | events
  | metadata
deriving DecidableEq

/-- The level of a register: the version of the events, or the revision of the metadata. -/
def EventLog.level (log : EventLog) (key : String) : Register → Int
  | .events => log.version key
  | .metadata => (log.metadataOf key).1

/-- A call that writes to a register of a key. -/
inductive Posting where
  | write (key : String) (events : NonEmptyList Event) (headers : Headers) (expected : Option Int)
  | annotate (key : String) (metadata : StreamMetadata) (expected : Int)

namespace Posting

def key : Posting → String
  | write key .. => key
  | annotate key .. => key

def register : Posting → Register
  | write .. => .events
  | annotate .. => .metadata

def expected : Posting → Option Int
  | write _ _ _ expected => expected
  | annotate _ _ expected => some expected

def size : Posting → Nat
  | write _ events _ _ => events.1.length
  | annotate .. => 1

theorem size_pos (p : Posting) : 0 < p.size := by
  cases p with
  | write key events headers expected => exact List.length_pos_iff.2 events.2
  | annotate key metadata expected => exact Nat.one_pos

/-- `log'` is `log` with what a granted posting writes, and nothing else is different. -/
def Entered (log log' : EventLog) : Posting → Prop
  | write key events _ _ =>
    log.Continued log' key events.1 ∧ (∀ other ≠ key, log'.events other = log.events other) ∧
      (∀ other ∈ log'.keys, other = key ∨ other ∈ log.keys) ∧ log'.metadata = log.metadata
  | annotate key metadata _ =>
    log'.metadataOf key = ((log.metadataOf key).1 + 1, metadata) ∧
      (∀ other ≠ key, log'.metadataOf other = log.metadataOf other) ∧ log'.streams = log.streams

/-- How a posting to `log` is answered, and what it leaves. -/
inductive Answered (p : Posting) (log log' : EventLog) : Except StoreError Int → Prop
  | granted (hexpected : ∀ v, p.expected = some v → v = log.level p.key p.register)
      (hentered : p.Entered log log') :
      Answered p log log' (.ok (log.level p.key p.register + p.size))
  | refused {v : Int} (hexpected : p.expected = some v) (hne : v ≠ log.level p.key p.register)
      (hsame : log' = log) :
      Answered p log log' (.error (.version ⟨p.key, v, log.level p.key p.register⟩))

variable {p : Posting} {log log' : EventLog} {r : Except StoreError Int}

/-- The level of the register that is written to moves on, and the other levels stay. -/
theorem Entered.level (h : p.Entered log log') (key : String) (register : Register) :
    log'.level key register = log.level key register +
      if p.key = key ∧ p.register = register then (p.size : Int) else 0 := by
  cases p with
  | write written events headers expected =>
    obtain ⟨hcontinued, hothers, -, hmetadata⟩ := h
    cases register with
    | events =>
      by_cases hk : written = key
      · subst hk
        simpa [EventLog.level, Posting.key, Posting.register, size] using hcontinued.version
      · simpa [EventLog.level, Posting.key, Posting.register, hk] using
          EventLog.version_congr (hothers key (Ne.symm hk))
    | metadata => simp [EventLog.level, EventLog.metadataOf, hmetadata, Posting.register]
  | annotate annotated metadata expected =>
    obtain ⟨hself, hothers, hstreams⟩ := h
    cases register with
    | events =>
      simp [EventLog.level, EventLog.version, EventLog.events, hstreams, Posting.register]
    | metadata =>
      by_cases hk : annotated = key
      · subst hk
        simp [EventLog.level, hself, Posting.key, Posting.register, size]
      · simp [EventLog.level, hothers key (Ne.symm hk), Posting.key, hk]

theorem Entered.numbered (h : p.Entered log log') (hlog : log.Numbered) : log'.Numbered := by
  intro key
  cases p with
  | write written events headers expected =>
    obtain ⟨hcontinued, hothers, -, -⟩ := h
    by_cases hk : key = written
    · subst hk
      have hversion := hlog.version_eq key
      obtain ⟨stored, hevents, -, hstored⟩ := hcontinued
      rw [hevents]
      refine numbered_append.2 ⟨hlog key, ?_⟩
      rwa [show (0 : Int) + (log.events key).length = log.version key + 1 by omega]
    · rw [hothers key hk]
      exact hlog key
  | annotate annotated metadata expected =>
    rw [EventLog.events, h.2.2]
    exact hlog key

theorem Entered.inhabited (h : p.Entered log log') (hlog : ∀ key ∈ log.keys, log.events key ≠ []) :
    ∀ key ∈ log'.keys, log'.events key ≠ [] := by
  intro key hkey
  cases p with
  | write written events headers expected =>
    obtain ⟨⟨stored, hevents, hfiled, -⟩, hothers, hkeys, -⟩ := h
    by_cases hk : key = written
    · subst hk
      have hstored : stored ≠ [] := by
        rw [← List.length_pos_iff, ← hfiled.length_eq]
        exact List.length_pos_iff.2 events.2
      rw [hevents]
      exact List.append_ne_nil_of_right_ne_nil _ hstored
    · rw [hothers key hk]
      exact hlog key ((hkeys key hkey).resolve_left hk)
  | annotate annotated metadata expected =>
    rw [EventLog.keys, h.2.2] at hkey
    rw [EventLog.events, h.2.2]
    exact hlog key hkey

end Posting

def EventStore.post {m : Type → Type} (store : EventStore m) :
    Posting → m (Except StoreError Int)
  | .write key events headers expected => store.write key events headers expected
  | .annotate key metadata expected => store.writeMetadata key metadata expected

section Posting

variable {cell : Cell (StateM σ) EventLog} {supply : Surroundings (StateM σ)} {log : σ → EventLog}
  {a b : σ} {r : Except StoreError Int}

private theorem answered_write {key : String} {events : NonEmptyList Event} {headers : Headers}
    {expected : Option Int} (hcell : cell.Logs log)
    (h : Runs ((EventLog.store cell supply).write key events headers expected) a r b) :
    (Posting.write key events headers expected).Answered (log a) (log b) r := by
  have hentered : ∀ ids time, (Posting.write key events headers expected).Entered (log a)
      ((log a).append key events headers ids time).2 := by
    intro ids time
    refine ⟨.append .., fun other hk => EventLog.events_append_of_ne _ hk .., ?_, rfl⟩
    intro other hk
    simpa [EventLog.append, EventLog.keys, eq_comm (a := key)] using hk
  obtain ⟨ids, time, hdone⟩ := EventLog.runs_write_store hcell h
  cases expected with
  | none =>
    rw [EventLog.write_none] at hdone
    obtain ⟨rfl, hlog⟩ := hdone
    rw [hlog]
    exact .granted (by simp [Posting.expected]) (hentered ids time)
  | some v =>
    rw [EventLog.write_some] at hdone
    by_cases hv : (log a).version key = v
    · rw [if_pos hv] at hdone
      obtain ⟨rfl, hlog⟩ := hdone
      rw [hlog]
      refine .granted (fun u hu => ?_) (hentered ids time)
      cases hu
      exact hv.symm
    · rw [if_neg hv] at hdone
      obtain ⟨rfl, hlog⟩ := hdone
      exact .refused rfl (Ne.symm hv) hlog

private theorem answered_annotate {key : String} {metadata : StreamMetadata} {expected : Int}
    (hcell : cell.Logs log)
    (h : Runs ((EventLog.store cell supply).writeMetadata key metadata expected) a r b) :
    (Posting.annotate key metadata expected).Answered (log a) (log b) r := by
  simp only [EventLog.store, runs_bind] at h
  obtain ⟨l, a₁, hget, h⟩ := h
  obtain ⟨rfl, hsame⟩ := hcell.get _ _ _ hget
  by_cases hv : ((log a).metadataOf key).1 = expected
  · simp only [EventLog.writeMetadata, if_pos hv, runs_bind, runs_pure] at h
    obtain ⟨u, a₂, hset, rfl, rfl⟩ := h
    rw [hcell.set _ _ _ _ hset]
    refine .granted (fun u hu => ?_) ⟨?_, fun other hk => ?_, rfl⟩
    · cases hu
      exact hv.symm
    · simp [EventLog.metadataOf]
    · simp [EventLog.metadataOf, Std.ExtTreeMap.getD_insert, Ne.symm hk]
  · simp only [EventLog.writeMetadata, if_neg hv] at h
    obtain ⟨rfl, rfl⟩ := runs_pure.1 h
    exact .refused rfl (Ne.symm hv) hsame

/-- Every posting to a log in memory is granted or refused by its level alone. -/
theorem answered_of_post {p : Posting} (hcell : cell.Logs log)
    (h : Runs ((EventLog.store cell supply).post p) a r b) : p.Answered (log a) (log b) r := by
  cases p with
  | write key events headers expected => exact answered_write hcell h
  | annotate key metadata expected => exact answered_annotate hcell h

end Posting

abbrev Posted := Posting × Except StoreError Int

namespace Posted

def wins (key : String) (register : Register) (v : Int) (c : Posted) : Bool :=
  c.1.key = key ∧ c.1.register = register ∧ c.1.expected = some v ∧ c.2.isOk

def added (key : String) (register : Register) (c : Posted) : Nat :=
  if c.1.key = key ∧ c.1.register = register ∧ c.2.isOk then c.1.size else 0

variable {key : String} {register : Register} {v : Int} {p : Posting}

theorem wins_ok {n : Int} : wins key register v (p, .ok n) = true ↔
    p.key = key ∧ p.register = register ∧ p.expected = some v := by
  simp [wins, Except.isOk, Except.toBool]

@[simp] theorem wins_error {err : StoreError} : wins key register v (p, .error err) = false := by
  simp [wins, Except.isOk, Except.toBool]

theorem added_ok {n : Int} : added key register (p, .ok n) =
    if p.key = key ∧ p.register = register then p.size else 0 := by
  simp [added, Except.isOk, Except.toBool]

@[simp] theorem added_error {err : StoreError} : added key register (p, .error err) = 0 := by
  simp [added, Except.isOk, Except.toBool]

end Posted

/-- The states that a log in memory comes to from an empty one, with the postings that were made,
the newest first. What else happens meanwhile leaves the log alone. -/
inductive Ledger (store : EventStore (StateM σ)) (log : σ → EventLog) : List Posted → σ → Prop
  | opened {a : σ} (hempty : log a = .empty) : Ledger store log [] a
  | posted {calls : List Posted} {a b : σ} {p : Posting} {r : Except StoreError Int}
      (hcalls : Ledger store log calls a) (hrun : Runs (store.post p) a r b) :
      Ledger store log ((p, r) :: calls) b
  | meanwhile {calls : List Posted} {a b : σ} (hcalls : Ledger store log calls a)
      (hsame : log b = log a) : Ledger store log calls b

/-- What postings keep of a log: the versions under each key are 0, 1, 2, … in order, keys hold
events, a level counts what was added to its register, and no level was won twice. -/
structure EventLog.Balanced (log : EventLog) (calls : List Posted) : Prop where
  numbered : log.Numbered
  inhabited : ∀ key ∈ log.keys, log.events key ≠ []
  counted : ∀ key register,
    log.level key register = ((calls.map (Posted.added key register)).sum : Int) - 1
  once : ∀ key register v, calls.countP (Posted.wins key register v) ≤ 1
  passed : ∀ key register v, 0 < calls.countP (Posted.wins key register v) →
    v < log.level key register

namespace EventLog.Balanced

variable {log log' : EventLog} {calls : List Posted} {p : Posting} {r : Except StoreError Int}

theorem empty : EventLog.empty.Balanced [] where
  numbered := numbered_empty
  inhabited key hkey := by simp [EventLog.keys, EventLog.empty] at hkey
  counted key register := by
    cases register with
    | events => simp [level, EventLog.version, newStreamVersion]
    | metadata => simp [level, newStreamVersion]
  once _ _ _ := Nat.zero_le 1
  passed _ _ _ h := absurd h (Nat.lt_irrefl 0)

theorem post (h : log.Balanced calls) (hanswer : p.Answered log log' r) :
    log'.Balanced ((p, r) :: calls) := by
  cases hanswer with
  | refused hexpected hne hsame =>
    subst hsame
    refine ⟨h.numbered, h.inhabited, fun key register => ?_, fun key register v => ?_,
      fun key register v hpos => ?_⟩
    · rw [List.map_cons, List.sum_cons, Posted.added_error, Nat.zero_add]
      exact h.counted key register
    · rw [List.countP_cons, Posted.wins_error]
      exact h.once key register v
    · rw [List.countP_cons, Posted.wins_error] at hpos
      exact h.passed key register v hpos
  | granted hexpected hentered =>
    have hlevel := hentered.level
    have hsize := p.size_pos
    -- A level that was won before is behind its register, which is at the level that is won now.
    have hfirst : ∀ key register v, p.key = key ∧ p.register = register ∧ p.expected = some v →
        v = log.level key register ∧ calls.countP (Posted.wins key register v) = 0 := by
      rintro key register v ⟨rfl, rfl, hv⟩
      have hfound := hexpected v hv
      refine ⟨hfound, Nat.eq_zero_of_not_pos fun hpos => ?_⟩
      have hbehind := h.passed _ _ _ hpos
      omega
    refine ⟨hentered.numbered h.numbered, hentered.inhabited h.inhabited, fun key register => ?_,
      fun key register v => ?_, fun key register v hpos => ?_⟩
    · rw [hlevel, h.counted, List.map_cons, List.sum_cons, Posted.added_ok]
      split <;> omega
    · rw [List.countP_cons]
      split
      · rename_i hwins
        exact Nat.le_of_eq (congrArg (· + 1) (hfirst _ _ _ (Posted.wins_ok.1 hwins)).2)
      · exact h.once key register v
    · rw [hlevel]
      rw [List.countP_cons] at hpos
      by_cases hthis : p.key = key ∧ p.register = register ∧ p.expected = some v
      · rw [if_pos ⟨hthis.1, hthis.2.1⟩, (hfirst _ _ _ hthis).1]
        omega
      · rw [if_neg (mt Posted.wins_ok.1 hthis)] at hpos
        have hbehind := h.passed key register v hpos
        split <;> omega

end EventLog.Balanced

/-- What is found are the first of the events of at least a version, so many of them or all. -/
def FirstFrom (events : List Event) (start : Int) (count : Option Nat) (found : List Event) :
    Prop :=
  ∃ older newer, events = older ++ (found ++ newer) ∧ (∀ e ∈ older, e.version < start) ∧
    (∀ e ∈ found ++ newer, start ≤ e.version) ∧
    match count with
    | some n => found.length = min n (found ++ newer).length
    | none => newer = []

/-- What is found are the last of the events, so many of them, the newest first. -/
def LastBack (events : List Event) (count : Nat) (found : List Event) : Prop :=
  ∃ older, events = older ++ found.reverse ∧ found.length = min count events.length

namespace EventLog

theorem Numbered.read {log : EventLog} (h : log.Numbered) (key : String) (start : Int)
    (count : Option Nat) : FirstFrom (log.events key) start count (log.read key start count) := by
  obtain ⟨older, rest, hsplit, holder, hrest⟩ := (h key).split start
  have hfound : ((log.events key).filter fun e => start ≤ e.version) = rest := by
    rw [hsplit, List.filter_append, List.filter_eq_nil_iff.2 fun e he => by simpa using holder e he,
      List.filter_eq_self.2 fun e he => by simpa using hrest e he, List.nil_append]
  cases count with
  | none => exact ⟨older, [], by simpa [EventLog.read, hfound] using ⟨hsplit, holder, hrest⟩⟩
  | some n =>
    refine ⟨older, rest.drop n, ?_⟩
    simp only [EventLog.read, hfound, List.take_append_drop, List.length_take]
    exact ⟨hsplit, holder, hrest, trivial⟩

theorem lastBack_readBack (log : EventLog) (key : String) (count : Nat) :
    LastBack (log.events key) count (log.readBack key count) := by
  refine ⟨((log.events key).reverse.drop count).reverse, ?_, by simp [readBack]⟩
  rw [readBack, ← List.reverse_append, List.take_append_drop, List.reverse_reverse]

end EventLog

/-- What a store over a log in memory does in a state, after some postings. -/
structure Lawful (store : EventStore (StateM σ)) (log : σ → EventLog) (calls : List Posted)
    (a : σ) : Prop where
  balanced : (log a).Balanced calls
  version : ∀ key, (log a).level key .events = ((log a).events key).length - 1
  answered : ∀ p r b, Runs (store.post p) a r b → p.Answered (log a) (log b) r
  read : ∀ key start count r b, Runs (store.read key start count) a r b → log b = log a ∧
    ∃ found, r = .ok found ∧ FirstFrom ((log a).events key) start count found
  readBack : ∀ key count r b, Runs (store.readBack key count) a r b → log b = log a ∧
    ∃ found, r = .ok found ∧ LastBack ((log a).events key) count found

section Ledger

variable {cell : Cell (StateM σ) EventLog} {supply : Surroundings (StateM σ)} {log : σ → EventLog}
  {calls : List Posted} {a : σ}

theorem balanced_of_ledger (hcell : cell.Logs log)
    (h : Ledger (EventLog.store cell supply) log calls a) : (log a).Balanced calls := by
  induction h with
  | opened hempty =>
    rw [hempty]
    exact .empty
  | posted hcalls hrun ih => exact ih.post (answered_of_post hcell hrun)
  | meanwhile hcalls hsame ih =>
    rw [hsame]
    exact ih

/-- Whatever was posted to a log in memory, each key holds events of the versions 0, 1, 2, … in
order; the next posting to a register is granted exactly at its level, and moves it on or changes
nothing; no level was won twice; and reading gives the events from a version on, or the last
ones. -/
theorem lawful_of_ledger (hcell : cell.Logs log)
    (h : Ledger (EventLog.store cell supply) log calls a) :
    Lawful (EventLog.store cell supply) log calls a := by
  have hbalanced := balanced_of_ledger hcell h
  refine ⟨hbalanced, hbalanced.numbered.version_eq, fun p r b => answered_of_post hcell, ?read,
    ?readBack⟩
  case read =>
    intro key start count r b hrun
    simp only [EventLog.store, runs_bind_pure] at hrun
    obtain ⟨l, hget, rfl⟩ := hrun
    obtain ⟨rfl, hsame⟩ := hcell.get _ _ _ hget
    exact ⟨hsame, _, rfl, hbalanced.numbered.read key start count⟩
  case readBack =>
    intro key count r b hrun
    simp only [EventLog.store, runs_bind_pure] at hrun
    obtain ⟨l, hget, rfl⟩ := hrun
    obtain ⟨rfl, hsame⟩ := hcell.get _ _ _ hget
    exact ⟨hsame, _, rfl, (log a).lastBack_readBack key count⟩

end Ledger

namespace World

def oddPair : Posting :=
  .write "tally"
    ⟨[(Timeline.empty Cluster.tallyStream).draft .domain 7 ⟨.numbered 100, .epoch⟩ "tally.step"
        .null ∅,
      (Timeline.empty Cluster.tallyStream).draft .oob (-3) ⟨.numbered 101, .epoch⟩ "tally.note"
        .null ∅], by simp⟩ ∅ (some newStreamVersion)

/-- Of two writers that both expect the key to be new the second one is refused, and the metadata of
the key is new all the same. -/
theorem lawful_rivals :
    let store := (site .epoch).events
    ∃ a, (a.log.events "tally").map (fun e => e.version) = [0, 1] ∧
      Ledger store World.log [(.annotate "tally" .empty newStreamVersion, .ok 0),
        (oddPair, .error (.version ⟨"tally", newStreamVersion, 1⟩)), (oddPair, .ok 1)] a ∧
      Lawful store World.log [(.annotate "tally" .empty newStreamVersion, .ok 0),
        (oddPair, .error (.version ⟨"tally", newStreamVersion, 1⟩)), (oddPair, .ok 1)] a := by
  intro store
  obtain ⟨r₁, a₁, hfirst⟩ := Runs.total (store.post oddPair) (start .epoch)
  obtain ⟨r₂, a₂, hsecond⟩ := Runs.total (store.post oddPair) a₁
  obtain ⟨r₃, a₃, hthird⟩ := Runs.total (store.post (.annotate "tally" .empty newStreamVersion)) a₂
  have hfacts : (let first := (store.post oddPair).run (start .epoch)
      let second := (store.post oddPair).run first.2
      let third := (store.post (.annotate "tally" .empty newStreamVersion)).run second.2
      first.1 = .ok 1 ∧ second.1 = .error (.version ⟨"tally", newStreamVersion, 1⟩) ∧
        third.1 = .ok 0 ∧ (third.2.log.events "tally").map (fun e => e.version) = [0, 1]) := by
    decide +kernel
  simp only [hfirst.run_eq, hsecond.run_eq, hthird.run_eq] at hfacts
  obtain ⟨rfl, rfl, rfl, hversions⟩ := hfacts
  have hopened : Ledger store World.log [] (start .epoch) := .opened rfl
  have hledger := ((hopened.posted hfirst).posted hsecond).posted hthird
  exact ⟨a₃, hversions, hledger, lawful_of_ledger logs_cell hledger⟩

end World

end Chronicle
