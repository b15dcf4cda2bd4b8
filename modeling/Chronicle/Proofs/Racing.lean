import Mathlib.Data.List.Infix
import Mathlib.Logic.Function.Basic
import Chronicle.Proofs.Exclusion

/-!
# Racing claims on a stream

A freeze reads the metadata of a stream, then the clock, and then replaces the metadata at the
revision that it read; a release reads and replaces. Here each of these requests is a step of its
own, and any number of calls take their steps in any order.

What is read may be outdated when the write comes, but then the revision is, too, and the write is
refused. So a write that goes through was decided on the metadata that it replaces, and the claims
on a stream alternate: a freeze comes only while nobody holds the stream, and a release by its
holder.
-/

namespace Chronicle

/-- A program on a state that others work on, too, between two of its steps. -/
inductive Program (σ α : Type) where
  | done (a : α)
  | step (effect : σ → σ) (next : σ → Program σ α)

namespace Program

variable {σ α β : Type}

protected def bind : Program σ α → (α → Program σ β) → Program σ β
  | done a, f => f a
  | step effect next, f => step effect fun s => (next s).bind f

instance : Monad (Program σ) where
  pure := done
  bind := Program.bind

def advance : Program σ α → σ → Program σ α × σ
  | done a, s => (done a, s)
  | step effect next, s => (next s, effect s)

def request (x : StateM σ α) : Program σ α :=
  step (fun s => (x.run s).2) fun s => done (x.run s).1

/-- Run all steps, with nobody in between. -/
def alone : Program σ α → σ → α × σ
  | done a, s => (a, s)
  | step effect next, s => (next s).alone (effect s)

theorem alone_advance (p : Program σ α) (s : σ) :
    (p.advance s).1.alone (p.advance s).2 = p.alone s := by
  cases p <;> rfl

theorem advance_request {x : StateM σ α} {f : α → Program σ β} {s s' : σ} {a : α}
    (h : Runs x s a s') : (request x >>= f).advance s = (f a, s') := by
  change (f (x.run s).1, (x.run s).2) = (f a, s')
  rw [h.run_eq]

end Program

section Stepwise

variable {σ α : Type}

/-- The same event store, each of its requests being one step. -/
def EventStore.stepwise (store : EventStore (StateM σ)) : EventStore (Program σ) where
  read key start count := .request (store.read key start count)
  readBack key count := .request (store.readBack key count)
  write key events headers expected := .request (store.write key events headers expected)
  verify key expected := .request (store.verify key expected)
  metadata key := .request (store.metadata key)
  writeMetadata key metadata expected := .request (store.writeMetadata key metadata expected)

def Cell.stepwise (cell : Cell (StateM σ) α) : Cell (Program σ) α where
  get := .request cell.get
  set a := .request (cell.set a)

def Surroundings.stepwise (supply : Surroundings (StateM σ)) : Surroundings (Program σ) where
  freshId := .request supply.freshId
  now := .request supply.now
  elapsed := .request supply.elapsed

def CachedStore.stepwise (st : CachedStore (StateM σ)) : CachedStore (Program σ) where
  events := st.events.stepwise
  cache := st.cache.stepwise
  surroundings := st.surroundings.stepwise
  owner := st.owner
  freezeTimeout := st.freezeTimeout

end Stepwise

namespace CachedStore

variable {σ : Type}

/-- The write of metadata at a revision, with which a call ends. -/
def replacing (st : CachedStore (Program σ)) (key : String) (revision : Int)
    (metadata : StreamMetadata) : Program σ (Except StoreError Unit) :=
  ExceptT.run (discard (st.events.writeMetadata key metadata revision :
    ExceptT StoreError (Program σ) Int))

/-- What is left of a freeze after the metadata was read. -/
def claiming (st : CachedStore (Program σ)) (key : String) (revision : Int)
    (metadata : StreamMetadata) : Program σ (Except StoreError Unit) :=
  ExceptT.run do
    let now ← st.surroundings.now
    match metadata.frozen with
    | some f => if isStale st.freezeTimeout now f then pure () else throw (.frozen key f.owner)
    | none => pure ()
    discard (st.events.writeMetadata key { metadata with frozen := some ⟨st.owner, now⟩ } revision :
      ExceptT StoreError (Program σ) _)

end CachedStore

/-- A call of an instance to freeze a stream or to let go of it. -/
inductive Call where
  | freeze (k : Instance) (t : Timeline)
  | unfreeze (k : Instance) (t : Timeline)

namespace Call

def caller : Call → Instance
  | freeze k _ | unfreeze k _ => k

def key : Call → String
  | freeze _ t | unfreeze _ t => t.key .domain

def program (opened : Moment) : Call → Program World (Except StoreError Unit)
  | freeze k t => ((k.cached opened).stepwise.freeze t).run
  | unfreeze k t => ((k.cached opened).stepwise.unfreeze t).run

/-- A call may put one claim in the place of another: a freeze its own in the place of none, a
release none in the place of its own. -/
def Fits : Call → Option Freeze → Option Freeze → Prop
  | freeze k _, before, after => before = none ∧ ∃ since, after = some ⟨k.owner, since⟩
  | unfreeze k _, before, after => (∃ f, before = some f ∧ f.owner = k.owner) ∧ after = none

end Call

/-- The calls freeze a stream and let go of it in turn. Each release is by the instance of the
freeze before it, and the last freeze without a release is by the holder. -/
inductive Alternates : List Call → Option Uuid → Prop where
  | none : Alternates [] none
  | freeze {past : List Call} {k : Instance} {t : Timeline} (h : Alternates past none) :
      Alternates (past ++ [.freeze k t]) (some k.owner)
  | unfreeze {past : List Call} {k : Instance} {t : Timeline}
      (h : Alternates past (some k.owner)) : Alternates (past ++ [.unfreeze k t]) none

theorem Alternates.append {past : List Call} {before after : Option Freeze} {call : Call}
    (h : Alternates past (before.map Freeze.owner)) (hfits : call.Fits before after) :
    Alternates (past ++ [call]) (after.map Freeze.owner) := by
  cases call with
  | freeze k t =>
    obtain ⟨rfl, since, rfl⟩ := hfits
    exact .freeze h
  | unfreeze k t =>
    obtain ⟨⟨f, rfl, howner⟩, rfl⟩ := hfits
    rw [Option.map_some, howner] at h
    exact .unfreeze h

/-- A world and what is left of some calls. -/
structure Race (ι : Type) where
  world : World
  programs : ι → Program World (Except StoreError Unit)

inductive Turn (ι : Type) where
  | call (i : ι)
  | setWall (time : Moment)

namespace Race

open World

variable {ι : Type}

def start (opened : Moment) (w : World) (calls : ι → Call) : Race ι :=
  ⟨w, fun i => (calls i).program opened⟩

/-- The freeze that stands is stale for none of the callers. -/
def Fresh (race : Race ι) (calls : ι → Call) (key : String) : Prop :=
  ∀ f ∈ race.world.log.freeze? key, ∀ i,
    CachedStore.isStale (calls i).caller.freezeTimeout race.world.wall f = false

variable [DecidableEq ι]

def turn (race : Race ι) : Turn ι → Race ι
  | .call i =>
    let (program, world) := (race.programs i).advance race.world
    ⟨world, Function.update race.programs i program⟩
  | .setWall time => { race with world := { race.world with wall := time } }

def run (race : Race ι) (turns : List (Turn ι)) : Race ι := turns.foldl turn race

/-- The call that writes the metadata of a key with this turn, if one does. -/
def landing (race : Race ι) (key : String) : Turn ι → List ι
  | .call i =>
    if (race.turn (.call i)).world.log.metadataOf key = race.world.log.metadataOf key then []
    else [i]
  | .setWall _ => []

def landings (race : Race ι) (key : String) : List (Turn ι) → List ι
  | [] => []
  | first :: rest => race.landing key first ++ (race.turn first).landings key rest

end Race

section Steps

open World

variable {k : Instance} {opened : Moment} {t : Timeline} {w : World} {key : String}
  {revision : Int} {metadata : StreamMetadata}

theorem advance_freeze (hkey : t.key .domain = key) :
    ((Call.freeze k t).program opened).advance w =
      ((k.cached opened).stepwise.claiming key (w.log.metadataOf key).1 (w.log.metadataOf key).2,
        w) := by
  subst hkey
  rfl

theorem advance_unfreeze (hkey : t.key .domain = key) :
    ((Call.unfreeze k t).program opened).advance w =
      (match (w.log.metadataOf key).2.frozen with
        | none => .done (.ok ())
        | some f =>
          if f.owner = k.owner then
            (k.cached opened).stepwise.replacing key (w.log.metadataOf key).1
              { (w.log.metadataOf key).2 with frozen := none }
          else .done (.ok ()), w) := by
  subst hkey
  have hread : ((Call.unfreeze k t).program opened).advance w =
      ((match (w.log.metadataOf (t.key .domain)).2.frozen with
        | none => pure ()
        | some f =>
          if f.owner = k.owner then
            discard ((k.cached opened).stepwise.events.writeMetadata (t.key .domain)
              { (w.log.metadataOf (t.key .domain)).2 with frozen := none }
              (w.log.metadataOf (t.key .domain)).1 : ExceptT StoreError (Program World) Int)
          else pure () : ExceptT StoreError (Program World) Unit).run, w) := rfl
  rw [hread]
  cases (w.log.metadataOf (t.key .domain)).2.frozen with
  | none => rfl
  | some f =>
    by_cases howner : f.owner = k.owner
    · simp only [if_pos howner]
      rfl
    · simp only [if_neg howner]
      rfl

theorem advance_claiming :
    ((k.cached opened).stepwise.claiming key revision metadata).advance w =
      (match metadata.frozen with
        | none => (k.cached opened).stepwise.replacing key revision
            { metadata with frozen := some ⟨k.owner, w.wall⟩ }
        | some f =>
          if CachedStore.isStale k.freezeTimeout w.wall f then
            (k.cached opened).stepwise.replacing key revision
              { metadata with frozen := some ⟨k.owner, w.wall⟩ }
          else .done (.error (.frozen key f.owner)), w) := by
  have hclock : ((k.cached opened).stepwise.claiming key revision metadata).advance w =
      ((do
        match metadata.frozen with
        | some f =>
          if CachedStore.isStale k.freezeTimeout w.wall f then pure ()
          else throw (.frozen key f.owner)
        | none => pure ()
        discard ((k.cached opened).stepwise.events.writeMetadata key
          { metadata with frozen := some ⟨k.owner, w.wall⟩ } revision :
          ExceptT StoreError (Program World) Int) : ExceptT StoreError (Program World) Unit).run,
        w) := rfl
  rw [hclock]
  cases metadata.frozen with
  | none => rfl
  | some f =>
    by_cases hstale : CachedStore.isStale k.freezeTimeout w.wall f
    · simp only [if_pos hstale]
      rfl
    · simp only [if_neg hstale]
      rfl

/-- The write ends a call. At the revision of the stream it replaces the claim and nothing else. -/
theorem advance_replacing {frozen : Option Freeze} (hrevision : revision = (w.log.metadataOf key).1)
    (hmetadata : metadata = { (w.log.metadataOf key).2 with frozen }) :
    ((k.cached opened).stepwise.replacing key revision metadata).advance w =
      (.done (.ok ()), w.claimed key frozen) := by
  subst hrevision hmetadata
  exact Program.advance_request (runs_writeMetadata.2 ⟨rfl, rfl⟩)

theorem advance_replacing_of_ne (hrevision : revision ≠ (w.log.metadataOf key).1) :
    ((k.cached opened).stepwise.replacing key revision metadata).advance w =
      (.done (.error (.version ⟨key, revision, (w.log.metadataOf key).1⟩)), w) := by
  refine Program.advance_request (runs_writeMetadata_of_ne hrevision.symm)

/-- A freeze that nobody interrupts is the freeze of the store. -/
theorem alone_freeze :
    ((Call.freeze k t).program opened).alone w = ((k.store opened).freeze t).run w := by
  obtain ⟨r, w', h⟩ := Runs.total ((k.store opened).freeze t) w
  rw [h.run_eq]
  rw [Instance.runs_freeze] at h
  rw [← Program.alone_advance, advance_freeze rfl, ← Program.alone_advance, advance_claiming]
  cases hf : (w.log.metadataOf (t.key .domain)).2.frozen with
  | none =>
    simp only [hf] at h
    obtain ⟨rfl, rfl⟩ := h
    dsimp only
    rw [← Program.alone_advance, advance_replacing rfl rfl]
    rfl
  | some f =>
    simp only [hf] at h
    by_cases hstale : CachedStore.isStale k.freezeTimeout w.wall f = true
    · simp only [if_pos hstale] at h ⊢
      obtain ⟨rfl, rfl⟩ := h
      rw [← Program.alone_advance, advance_replacing rfl rfl]
      rfl
    · simp only [if_neg hstale] at h ⊢
      obtain ⟨rfl, rfl⟩ := h
      rfl

theorem alone_unfreeze :
    ((Call.unfreeze k t).program opened).alone w = ((k.store opened).unfreeze t).run w := by
  obtain ⟨r, w', h⟩ := Runs.total ((k.store opened).unfreeze t) w
  rw [h.run_eq]
  obtain ⟨rfl, rfl⟩ := Instance.runs_unfreeze.1 h
  rw [← Program.alone_advance, advance_unfreeze rfl]
  cases hf : (w.log.metadataOf (t.key .domain)).2.frozen with
  | none => rfl
  | some f =>
    by_cases howner : f.owner = k.owner
    · simp only [if_pos howner]
      rw [← Program.alone_advance, advance_replacing rfl rfl]
      rfl
    · simp only [if_neg howner]
      rfl

end Steps

section InFlight

open World

variable {opened : Moment} {key : String} {call : Call} {landed : Prop} {w : World}
  {now now' : Int × StreamMetadata} {program : Program World (Except StoreError Unit)}

/-- What is left of a call while the metadata of its stream is at `now`. What the call read is what
it was then; if the revision is the same still, the metadata is, too. -/
inductive Underway (opened : Moment) (key : String) (now : Int × StreamMetadata) :
    Call → Prop → Program World (Except StoreError Unit) → Prop where
  | waiting {call : Call} {landed : Prop} (hnew : ¬ landed) :
      Underway opened key now call landed (call.program opened)
  | claiming {k : Instance} {t : Timeline} {revision : Int} {metadata : StreamMetadata}
      {landed : Prop} (hnew : ¬ landed) (hpast : revision ≤ now.1)
      (hcurrent : revision = now.1 → metadata = now.2) :
      Underway opened key now (.freeze k t) landed
        ((k.cached opened).stepwise.claiming key revision metadata)
  | replacing {call : Call} {revision : Int} {metadata : StreamMetadata} {landed : Prop}
      (frozen : Option Freeze) (hnew : ¬ landed) (hpast : revision ≤ now.1)
      (hcurrent : revision = now.1 →
        metadata = { now.2 with frozen } ∧ call.Fits now.2.frozen frozen) :
      Underway opened key now call landed
        ((call.caller.cached opened).stepwise.replacing key revision metadata)
  | landed {call : Call} {landed : Prop} (h : landed) :
      Underway opened key now call landed (.done (.ok ()))
  | failed {call : Call} {landed : Prop} {err : StoreError} (hnew : ¬ landed) :
      Underway opened key now call landed (.done (.error err))
  | idle {k : Instance} {t : Timeline} {landed : Prop} (hnew : ¬ landed) :
      Underway opened key now (.unfreeze k t) landed (.done (.ok ()))

/-- When the metadata was replaced, whatever was read before is outdated. -/
theorem Underway.outdate (h : Underway opened key now call landed program)
    (hmoved : now.1 < now'.1) :
    Underway opened key now' call landed program := by
  cases h with
  | waiting hnew => exact .waiting hnew
  | claiming hnew hpast _ => exact .claiming hnew (by omega) (by omega)
  | replacing frozen hnew hpast _ => exact .replacing frozen hnew (by omega) (by omega)
  | landed h => exact .landed h
  | failed hnew => exact .failed hnew
  | idle hnew => exact .idle hnew

theorem Underway.eq_done (h : Underway opened key now call landed program) (hlanded : landed) :
    program = .done (.ok ()) := by
  cases h with
  | waiting hnew | claiming hnew | replacing _ hnew | failed hnew | idle hnew =>
    exact absurd hlanded hnew
  | landed => rfl

theorem Underway.landed_of_freeze {k : Instance} {t : Timeline}
    (h : Underway opened key now call landed program) (hcall : call = .freeze k t)
    (hdone : program = .done (.ok ())) : landed := by
  cases h with
  | waiting =>
    subst hcall
    cases hdone
  | claiming | replacing => cases hdone
  | landed h => exact h
  | failed => cases hdone
  | idle => cases hcall

/-- What a step of a call does: nothing to the world, or it ends the call and puts a claim in the
place of another. -/
inductive Moves (opened : Moment) (key : String) (call : Call) (landed : Prop) (w : World) :
    Program World (Except StoreError Unit) × World → Prop where
  | quiet {program : Program World (Except StoreError Unit)}
      (h : Underway opened key (w.log.metadataOf key) call landed program) :
      Moves opened key call landed w (program, w)
  | lands {frozen : Option Freeze} (hnew : ¬ landed)
      (hfits : call.Fits (w.log.freeze? key) frozen) :
      Moves opened key call landed w (.done (.ok ()), w.claimed key frozen)

theorem Underway.advance (h : Underway opened key (w.log.metadataOf key) call landed program)
    (hkey : call.key = key)
    (hfresh : ∀ f ∈ w.log.freeze? key,
      CachedStore.isStale call.caller.freezeTimeout w.wall f = false) :
    Moves opened key call landed w (program.advance w) := by
  cases h with
  | waiting hnew =>
    cases call with
    | freeze k t =>
      rw [advance_freeze hkey]
      exact .quiet (.claiming hnew (Int.le_refl _) fun _ => rfl)
    | unfreeze k t =>
      rw [advance_unfreeze hkey]
      cases hf : (w.log.metadataOf key).2.frozen with
      | none => exact .quiet (.idle hnew)
      | some f =>
        by_cases howner : f.owner = k.owner
        · simp only [if_pos howner]
          exact .quiet (.replacing none hnew (Int.le_refl _) fun _ =>
            ⟨rfl, ⟨f, hf, howner⟩, rfl⟩)
        · simp only [if_neg howner]
          exact .quiet (.idle hnew)
  | @claiming k t revision metadata _ hnew hpast hcurrent =>
    rw [advance_claiming]
    cases hf : metadata.frozen with
    | none =>
      refine .quiet (.replacing (some ⟨k.owner, w.wall⟩) hnew hpast fun hsame => ?_)
      obtain rfl := hcurrent hsame
      exact ⟨rfl, hf, w.wall, rfl⟩
    | some f =>
      by_cases hstale : CachedStore.isStale k.freezeTimeout w.wall f = true
      · simp only [if_pos hstale]
        -- A freeze that is stale was read at an earlier revision.
        refine .quiet (.replacing none hnew hpast fun hsame => ?_)
        obtain rfl := hcurrent hsame
        have hnot := hfresh f hf
        rw [Call.caller, hstale] at hnot
        cases hnot
      · simp only [if_neg hstale]
        exact .quiet (.failed hnew)
  | @replacing _ revision metadata _ frozen hnew hpast hcurrent =>
    by_cases hsame : revision = (w.log.metadataOf key).1
    · obtain ⟨hmetadata, hfits⟩ := hcurrent hsame
      rw [advance_replacing hsame hmetadata]
      exact .lands hnew hfits
    · rw [advance_replacing_of_ne hsame]
      exact .quiet (.failed hnew)
  | landed h => exact .quiet (.landed h)
  | failed hnew => exact .quiet (.failed hnew)
  | idle hnew => exact .quiet (.idle hnew)

end InFlight

namespace Race

open World

variable {ι : Type} {opened : Moment} {key : String} {calls : ι → Call} {first : Int}
  {landed : List ι} {race : Race ι} {turns : List (Turn ι)} {w : World} {i : ι}

/-- How a race stands after some calls landed. -/
structure Sound (opened : Moment) (calls : ι → Call) (key : String) (first : Int) (landed : List ι)
    (race : Race ι) : Prop where
  underway : ∀ i, Underway opened key (race.world.log.metadataOf key) (calls i) (i ∈ landed)
    (race.programs i)
  alternates : Alternates (landed.map calls) ((race.world.log.freeze? key).map Freeze.owner)
  nodup : landed.Nodup
  revision : (race.world.log.metadataOf key).1 = first + landed.length

theorem sound_start (hfree : w.log.freeze? key = none) :
    Sound opened calls key (w.log.metadataOf key).1 [] (start opened w calls) where
  underway i := .waiting (by simp)
  alternates := by
    change Alternates [] ((w.log.freeze? key).map Freeze.owner)
    rw [hfree]
    exact .none
  nodup := List.nodup_nil
  revision := by simp [start]

theorem revision_claimed (w : World) (key : String) (frozen : Option Freeze) :
    ((w.claimed key frozen).log.metadataOf key).1 = (w.log.metadataOf key).1 + 1 := by
  rw [metadataOf_claimed, if_pos rfl]

variable [DecidableEq ι]

inductive Rounds (opened : Moment) (calls : ι → Call) (key : String) (landed : List ι)
    (race : Race ι) (i : ι) : Prop where
  | quiet {program : Program World (Except StoreError Unit)}
      (hturn : race.turn (.call i) = ⟨race.world, Function.update race.programs i program⟩)
      (hunderway : Underway opened key (race.world.log.metadataOf key) (calls i) (i ∈ landed)
        program)
      (hlanding : race.landing key (.call i) = [])
  | lands {frozen : Option Freeze}
      (hturn : race.turn (.call i) =
        ⟨race.world.claimed key frozen, Function.update race.programs i (.done (.ok ()))⟩)
      (hnew : i ∉ landed) (hfits : (calls i).Fits (race.world.log.freeze? key) frozen)
      (hlanding : race.landing key (.call i) = [i])

theorem Sound.rounds (h : Sound opened calls key first landed race)
    (hkeys : ∀ i, (calls i).key = key) (hfresh : race.Fresh calls key) (i : ι) :
    Rounds opened calls key landed race i := by
  have hmoves := (h.underway i).advance (hkeys i) fun f hf => hfresh f hf i
  have hturn : race.turn (.call i) = ⟨((race.programs i).advance race.world).2,
      Function.update race.programs i ((race.programs i).advance race.world).1⟩ := rfl
  generalize (race.programs i).advance race.world = moved at hmoves hturn
  cases hmoves with
  | quiet hunderway => exact .quiet hturn hunderway (by rw [landing, hturn, if_pos rfl])
  | lands hnew hfits =>
    refine .lands hturn hnew hfits ?_
    rw [landing, hturn, if_neg]
    intro hsame
    have hrevision := congrArg Prod.fst hsame
    rw [revision_claimed] at hrevision
    omega

theorem Sound.turn (h : Sound opened calls key first landed race)
    (hkeys : ∀ i, (calls i).key = key) (hfresh : race.Fresh calls key) (turn : Turn ι) :
    Sound opened calls key first (landed ++ race.landing key turn) (race.turn turn) := by
  cases turn with
  | setWall time =>
    rw [landing, List.append_nil]
    exact ⟨h.underway, h.alternates, h.nodup, h.revision⟩
  | call i =>
    cases h.rounds hkeys hfresh i with
    | quiet hturn hunderway hlanding =>
      rw [hlanding, List.append_nil, hturn]
      refine ⟨fun j => ?_, h.alternates, h.nodup, h.revision⟩
      by_cases hj : j = i
      · subst hj
        simpa using hunderway
      · simpa [hj] using h.underway j
    | @lands frozen hturn hnew hfits hlanding =>
      rw [hlanding, hturn]
      constructor
      case underway =>
        intro j
        by_cases hj : j = i
        · subst hj
          simpa using Underway.landed (by simp)
        · have hmem : (j ∈ landed ++ [i]) = (j ∈ landed) := by simp [hj]
          simp only [hmem, Function.update_of_ne hj]
          -- The revision moved on, so whatever other calls have read is outdated.
          exact (h.underway j).outdate (by rw [revision_claimed]; omega)
      case alternates =>
        rw [List.map_append, freeze?_claimed, if_pos rfl]
        exact h.alternates.append hfits
      case nodup =>
        rw [List.nodup_append]
        refine ⟨h.nodup, List.pairwise_singleton _ i, fun a ha b hb => ?_⟩
        rw [List.mem_singleton.1 hb]
        exact ne_of_mem_of_not_mem ha hnew
      case revision =>
        rw [revision_claimed, h.revision, List.length_append, List.length_singleton]
        omega

/-- So it stays sound through all turns, as long as no freeze is stale. -/
theorem Sound.run (h : Sound opened calls key first landed race) (hkeys : ∀ i, (calls i).key = key)
    (hfresh : ∀ pre, pre <+: turns → (race.run pre).Fresh calls key) :
    Sound opened calls key first (landed ++ race.landings key turns) (race.run turns) := by
  induction turns generalizing race landed with
  | nil => simpa [landings, run] using h
  | cons turn rest ih =>
    rw [landings, ← List.append_assoc]
    refine ih (h.turn hkeys (hfresh [] List.nil_prefix) turn) fun pre hpre => ?_
    exact hfresh (turn :: pre) (List.cons_prefix_cons.2 ⟨rfl, hpre⟩)

/-- What comes of a race: the calls that land alternate, each of them replaces the claim that it was
decided on, and all others come to nothing. -/
structure Alternating (opened : Moment) (calls : ι → Call) (key : String) (w : World)
    (turns : List (Turn ι)) : Prop where
  alternates : Alternates (((start opened w calls).landings key turns).map calls)
    ((((start opened w calls).run turns).world.log.freeze? key).map Freeze.owner)
  nodup : ((start opened w calls).landings key turns).Nodup
  succeeds : ∀ i ∈ (start opened w calls).landings key turns,
    ((start opened w calls).run turns).programs i = .done (.ok ())
  landed : ∀ i k t, calls i = .freeze k t →
    ((start opened w calls).run turns).programs i = .done (.ok ()) →
      i ∈ (start opened w calls).landings key turns
  /-- A turn with which no call lands leaves the world as it is, and one with which a call lands
  puts a claim in the place of the one that stands. -/
  turn : ∀ pre i, pre ++ [Turn.call i] <+: turns →
    let before := (start opened w calls).run pre
    let after := (start opened w calls).run (pre ++ [.call i])
    before.landing key (.call i) = [] ∧ after.world = before.world ∨
      before.landing key (.call i) = [i] ∧
        ∃ frozen, (calls i).Fits (before.world.log.freeze? key) frozen ∧
          after.world = before.world.claimed key frozen
  revision : (((start opened w calls).run turns).world.log.metadataOf key).1 =
    (w.log.metadataOf key).1 + ((start opened w calls).landings key turns).length

/-- Whatever the order in which calls to freeze a stream and to let go of it take their steps, as
long as the stream was free before and no freeze is stale, those that land alternate. -/
theorem alternating_run (hkeys : ∀ i, (calls i).key = key) (hfree : w.log.freeze? key = none)
    (hfresh : ∀ pre, pre <+: turns → ((start opened w calls).run pre).Fresh calls key) :
    Alternating opened calls key w turns := by
  have hsound : ∀ pre, pre <+: turns → Sound opened calls key (w.log.metadataOf key).1
      ((start opened w calls).landings key pre) ((start opened w calls).run pre) :=
    fun pre hpre => (sound_start hfree).run hkeys fun p hp => hfresh p (hp.trans hpre)
  have hend := hsound turns (List.prefix_refl _)
  constructor
  case alternates => exact hend.alternates
  case nodup => exact hend.nodup
  case succeeds => exact fun i hi => (hend.underway i).eq_done hi
  case landed => exact fun i k t hcall hdone => (hend.underway i).landed_of_freeze hcall hdone
  case revision => exact hend.revision
  case turn =>
    intro pre i hpre
    have hbefore := (List.prefix_append _ _).trans hpre
    have hafter : (start opened w calls).run (pre ++ [.call i]) =
        ((start opened w calls).run pre).turn (.call i) := by
      rw [run, List.foldl_append]
      rfl
    rw [hafter]
    cases (hsound pre hbefore).rounds hkeys (hfresh pre hbefore) i with
    | quiet hturn _ hlanding => exact .inl ⟨hlanding, by rw [hturn]⟩
    | lands hturn _ hfits hlanding => exact .inr ⟨hlanding, _, hfits, by rw [hturn]⟩

/-- Two instances race to freeze a stream: both have read its metadata when the first one writes.
Then the first one lets go of it with two calls at a time. -/
def rivals : Fin 4 → Call
  | 0 => .freeze holding disputed
  | 1 => .freeze waiting disputed
  | 2 | 3 => .unfreeze holding disputed

def rivalry : List (Turn (Fin 4)) :=
  [.call 0, .call 1, .call 1, .call 0, .call 0, .call 1, .call 2, .call 3,
    .setWall (Moment.epoch.after (.ofSeconds 10)), .call 3, .call 2]

/-- One of the freezes and one of the releases land. -/
theorem alternating_rivalry :
    Alternating .epoch rivals (disputed.key .domain) (World.start .epoch) rivalry ∧
      (start .epoch (World.start .epoch) rivals).landings (disputed.key .domain) rivalry =
        [0, 3] := by
  have hkeys : ∀ i, (rivals i).key = disputed.key .domain := by decide
  have hfree : (World.start .epoch).log.freeze? (disputed.key .domain) = none := by
    decide +kernel
  have hrun : (∀ pre ∈ rivalry.inits,
      ((start .epoch (World.start .epoch) rivals).run pre).Fresh rivals (disputed.key .domain)) ∧
      (start .epoch (World.start .epoch) rivals).landings (disputed.key .domain) rivalry =
        [0, 3] := by
    unfold Fresh
    decide +kernel
  have hfresh : ∀ pre, pre <+: rivalry →
      ((start .epoch (World.start .epoch) rivals).run pre).Fresh rivals (disputed.key .domain) :=
    fun pre hpre => hrun.1 pre ((List.mem_inits ..).2 hpre)
  exact ⟨alternating_run hkeys hfree hfresh, hrun.2⟩

end Race

end Chronicle
