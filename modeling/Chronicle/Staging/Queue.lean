import Std.Data.ExtTreeMap
import Chronicle.Store.Surroundings

/-!
# Staging queues

A staging area keeps messages in groups, each named by a channel and a key, oldest first.
Messages are pulled from the front; those that could not be handled are given back to the
front, with their identifiers and times of arrival. A group that runs empty is forgotten.

`Staging` says what a staging area can be asked; `StagingArea` is one as a value.
-/

namespace Chronicle

/-- A message with the identifier and the time it got when it was added. -/
structure Staged (M : Type) where
  id : Uuid
  received : Moment
  message : M
deriving DecidableEq

namespace Staged

variable {M : Type}

def toJson (encode : M → Json) (s : Staged M) : Json :=
  .ofFields [("message_id", s.id.toJson), ("received", s.received.toJson),
    ("message", encode s.message)]

def decode (d : Json.Decoder M) : Json.Decoder (Staged M) :=
  Json.Fields.record "DelayedMessage" (Staged.mk <$> .field "message_id" Uuid.decode <*>
    .field "received" Moment.decode <*> .field "message" d)

end Staged

/-- What a staging area can be asked about the group of a channel and a key. A failure carries
its cause. -/
structure Staging (m : Type → Type) (M : Type) where
  /-- How long the front message has been waiting. -/
  age : String → String → m (Except String (Option Span))
  size : String → String → m (Except String Nat)
  add : String → String → M → m (Except String Unit)
  /-- Take messages from the front, at most so many. -/
  pull : String → String → Option Nat → m (Except String (List (Staged M)))
  /-- Give messages back to the front. -/
  requeue : String → String → List (Staged M) → m (Except String Unit)

structure GroupName where
  channel : String
  key : String
deriving DecidableEq, Inhabited

namespace GroupName

/-- Groups are ordered by channel, then by key. -/
def compare (a b : GroupName) : Ordering :=
  (Ord.compare a.channel b.channel).then (Ord.compare a.key b.key)

instance : Std.TransCmp compare :=
  inferInstanceAs (Std.TransCmp (compareLex (compareOn channel) (compareOn key)))

instance : Std.LawfulEqCmp compare where
  eq_of_compare {a b} h := by
    have h := Ordering.then_eq_eq.1 h
    have hc := Std.LawfulEqCmp.eq_of_compare h.1
    have hk := Std.LawfulEqCmp.eq_of_compare h.2
    cases a; cases b; simp_all

end GroupName

/-- Messages by group, oldest first. -/
structure StagingArea (M : Type) where
  groups : Std.ExtTreeMap GroupName (List (Staged M)) GroupName.compare

namespace StagingArea

variable {M : Type}

def empty : StagingArea M := ⟨∅⟩

def group (a : StagingArea M) (g : GroupName) : List (Staged M) := a.groups.getD g []

/-- Replace the messages of a group; a group without messages is forgotten. -/
def setGroup (a : StagingArea M) (g : GroupName) (messages : List (Staged M)) :
    StagingArea M :=
  ⟨if messages.isEmpty then a.groups.erase g else a.groups.insert g messages⟩

/-- How long the front message has been waiting; no time at all if it is from the future. -/
def age (a : StagingArea M) (g : GroupName) (now : Moment) : Option Span :=
  (a.group g).head?.map fun s => (s.received.spanTo? now).getD .zero

def size (a : StagingArea M) (g : GroupName) : Nat := (a.group g).length

def add (a : StagingArea M) (g : GroupName) (s : Staged M) : StagingArea M :=
  a.setGroup g (a.group g ++ [s])

def pullCount (a : StagingArea M) (g : GroupName) (max : Option Nat) : Nat :=
  match max with
  | some n => min n (a.size g)
  | none => a.size g

def pull (a : StagingArea M) (g : GroupName) (max : Option Nat) :
    List (Staged M) × StagingArea M :=
  let n := a.pullCount g max
  ((a.group g).take n, a.setGroup g ((a.group g).drop n))

def requeue (a : StagingArea M) (g : GroupName) (messages : List (Staged M)) : StagingArea M :=
  a.setGroup g (messages ++ a.group g)

@[simp] theorem group_empty (g : GroupName) : (empty : StagingArea M).group g = [] := by
  simp [group, empty]

@[simp] theorem group_setGroup_self (a : StagingArea M) (g : GroupName)
    (messages : List (Staged M)) : (a.setGroup g messages).group g = messages := by
  cases messages <;> simp [group, setGroup]

theorem group_setGroup_of_ne (a : StagingArea M) {g other : GroupName} (h : other ≠ g)
    (messages : List (Staged M)) : (a.setGroup g messages).group other = a.group other := by
  cases messages <;>
    simp [group, setGroup, Std.ExtTreeMap.getD_insert, Std.ExtTreeMap.getD_erase, Ne.symm h]

@[simp] theorem group_add_self (a : StagingArea M) (g : GroupName) (s : Staged M) :
    (a.add g s).group g = a.group g ++ [s] := by
  simp [add]

@[simp] theorem group_requeue_self (a : StagingArea M) (g : GroupName)
    (messages : List (Staged M)) : (a.requeue g messages).group g = messages ++ a.group g := by
  simp [requeue]

/-- What a pull takes and what it leaves make up the group. -/
theorem pull_append_group (a : StagingArea M) (g : GroupName) (max : Option Nat) :
    (a.pull g max).1 ++ (a.pull g max).2.group g = a.group g := by
  simp [pull]

theorem length_pull (a : StagingArea M) (g : GroupName) (max : Option Nat) :
    (a.pull g max).1.length = a.pullCount g max := by
  cases max <;> simp [pull, pullCount, size]

def picture (a : StagingArea M) : Text.Picture :=
  .record "Channel" false [("groups", .int a.groups.size)]

/-- A staging area in a cell. Its clock starts at a moment and then follows the clock that
never goes back. -/
def staging {m : Type → Type} [Monad m] (cell : Cell m (StagingArea M)) (s : Surroundings m)
    (start : Moment) : Staging m M where
  age channel key := do
    let now := start.after (← s.elapsed)
    pure (.ok ((← cell.get).age ⟨channel, key⟩ now))
  size channel key := do
    pure (.ok ((← cell.get).size ⟨channel, key⟩))
  add channel key message := do
    let now := start.after (← s.elapsed)
    let id ← s.freshId
    cell.modify fun a => a.add ⟨channel, key⟩ ⟨id, now, message⟩
    pure (.ok ())
  pull channel key max := do
    let (pulled, a) := (← cell.get).pull ⟨channel, key⟩ max
    cell.set a
    pure (.ok pulled)
  requeue channel key messages := do
    cell.modify fun a => a.requeue ⟨channel, key⟩ messages
    pure (.ok ())

end StagingArea

end Chronicle
