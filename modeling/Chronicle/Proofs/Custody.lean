import Mathlib.Logic.Function.Basic
import Chronicle.Proofs.PlainSite
import Chronicle.Proofs.Staging

/-!
# Where staged messages are

A book is kept for each group: the messages that were added, the pulls that are still held, and the
messages that were consumed. A pull is held until it is given back or consumed, and what is given
back is always the last pull of the group that is held. Then the pulls that are held, in the order
in which they were made, and the messages in the group behind them are in the order in which they
were added, and no message is lost or there twice.

The clock does not go back from one reading to the next. So messages have arrived in the order of
their times of arrival, and the front message of a group has waited the longest.
-/

namespace Chronicle

variable {σ M : Type}

namespace Moment

@[simp] theorem sinceEpoch_ofNanos (n : Int) : (ofNanos n).sinceEpoch = n := by
  simp only [sinceEpoch, ofNanos]
  omega

theorem sinceEpoch_after (m : Moment) (s : Span) :
    (m.after s).sinceEpoch = min (m.sinceEpoch + s.nanos) last.sinceEpoch := by
  unfold after
  dsimp only
  split
  · rw [sinceEpoch_ofNanos]
    omega
  · omega

theorem sinceEpoch_after_le (m : Moment) {s t : Span} (h : s ≤ t) :
    (m.after s).sinceEpoch ≤ (m.after t).sinceEpoch := by
  have hnanos : s.nanos ≤ t.nanos := h
  rw [sinceEpoch_after, sinceEpoch_after]
  omega

theorem spanTo?_eq_some {earlier later : Moment} (h : earlier.sinceEpoch ≤ later.sinceEpoch) :
    earlier.spanTo? later = some ⟨(later.sinceEpoch - earlier.sinceEpoch).toNat⟩ := by
  rw [spanTo?]
  exact if_pos (by omega)

end Moment

namespace StagingArea

/-- Each of the messages arrived at the time of the one before it or later. -/
def InTurn (messages : List (Staged M)) : Prop :=
  messages.Pairwise fun s t => s.received.sinceEpoch ≤ t.received.sinceEpoch

def Arrived (messages : List (Staged M)) (now : Moment) : Prop :=
  ∀ s ∈ messages, s.received.sinceEpoch ≤ now.sinceEpoch

/-- An age is the largest of the ages of some messages; there is none if there are no messages. -/
def Oldest (messages : List (Staged M)) (now : Moment) : Option Span → Prop
  | none => messages = []
  | some age => (∃ s ∈ messages, s.received.spanTo? now = some age) ∧
    ∀ s ∈ messages, ∃ waited ≤ age, s.received.spanTo? now = some waited

theorem oldest_age {area : StagingArea M} {g : GroupName} {now : Moment}
    (hturn : InTurn (area.group g)) (harrived : Arrived (area.group g) now) :
    Oldest (area.group g) now (area.age g now) := by
  unfold age
  cases hgroup : area.group g with
  | nil => rfl
  | cons front rest =>
    rw [hgroup] at hturn harrived
    have hfront := Moment.spanTo?_eq_some (harrived front (List.mem_cons_self ..))
    simp only [List.head?_cons, Option.map_some, hfront, Option.getD_some, Oldest]
    refine ⟨⟨front, List.mem_cons_self .., hfront⟩, fun s hs => ?_⟩
    refine ⟨_, ?_, Moment.spanTo?_eq_some (harrived s hs)⟩
    have hbehind : front.received.sinceEpoch ≤ s.received.sinceEpoch := by
      rcases List.mem_cons.1 hs with rfl | hrest
      · exact Int.le_refl _
      · exact (List.pairwise_cons.1 hturn).1 s hrest
    exact Int.toNat_le_toNat (by omega)

/-- Of two staging areas the second has some messages in a group, and they have the same messages in
all other groups. -/
structure Regrouped (x y : StagingArea M) (g : GroupName) (messages : List (Staged M)) : Prop where
  group : y.group g = messages
  others : ∀ other ≠ g, y.group other = x.group other

theorem regrouped_setGroup (area : StagingArea M) (g : GroupName) (messages : List (Staged M)) :
    Regrouped area (area.setGroup g messages) g messages :=
  ⟨group_setGroup_self .., fun _ h => group_setGroup_of_ne area h messages⟩

/-- Every group has messages. -/
def Compact (area : StagingArea M) : Prop := ∀ g : GroupName, area.groups[g]? ≠ some []

theorem compact_empty : (empty : StagingArea M).Compact := fun g => by simp [empty]

theorem Compact.setGroup {area : StagingArea M} (h : area.Compact) (g : GroupName)
    (messages : List (Staged M)) : (area.setGroup g messages).Compact := by
  intro other
  cases messages with
  | nil =>
    simp only [StagingArea.setGroup, List.isEmpty_nil, if_true, Std.ExtTreeMap.getElem?_erase]
    split
    · simp
    · exact h other
  | cons s rest =>
    simp only [StagingArea.setGroup, List.isEmpty_cons, Bool.false_eq_true, if_false,
      Std.ExtTreeMap.getElem?_insert]
    split
    · simp
    · exact h other

end StagingArea

/-- The book of a group: what was added to it, the pulls that are held, in the order in which they
were made, and what was consumed. -/
structure Holding (M : Type) where
  added : List (Staged M)
  held : List (List (Staged M))
  consumed : List (Staged M)

namespace Holding

variable {h : Holding M} {group pulled : List (Staged M)} {before after : List (List (Staged M))}

def nothing : Holding M := ⟨[], [], []⟩

/-- The messages that are held, and those in the group behind them, are in the order in which they
were added; together with what was consumed they are all that was added. -/
structure Kept (h : Holding M) (group : List (Staged M)) : Prop where
  ordered : (h.held.flatten ++ group).Sublist h.added
  conserved : h.added.Perm (h.held.flatten ++ group ++ h.consumed)

theorem kept_nothing : (nothing : Holding M).Kept [] := ⟨.slnil, .nil⟩

theorem Kept.add (hkept : h.Kept group) (s : Staged M) :
    Kept { h with added := h.added ++ [s] } (group ++ [s]) where
  ordered := by
    rw [← List.append_assoc]
    exact hkept.ordered.append_right [s]
  conserved := by
    refine (hkept.conserved.append_right [s]).trans ?_
    rw [← List.append_assoc, List.append_assoc, List.append_assoc (_ ++ group)]
    exact List.perm_append_comm.append_left _

/-- A pull leaves its messages between those that are held and those that are not pulled. -/
theorem Kept.pull (hkept : h.Kept (pulled ++ group)) :
    Kept { h with held := h.held ++ [pulled] } group where
  ordered := by simpa using hkept.ordered
  conserved := by simpa using hkept.conserved

theorem Kept.requeue (hkept : h.Kept group) (hheld : h.held = before ++ [pulled]) :
    Kept { h with held := before } (pulled ++ group) where
  ordered := by simpa [hheld] using hkept.ordered
  conserved := by simpa [hheld] using hkept.conserved

theorem Kept.consume (hkept : h.Kept group) (hheld : h.held = before ++ pulled :: after) :
    Kept { h with held := before ++ after, consumed := h.consumed ++ pulled } group where
  ordered := by
    refine List.Sublist.trans ?_ hkept.ordered
    rw [hheld]
    simp
  conserved := by
    refine hkept.conserved.trans ?_
    simp only [hheld, List.flatten_append, List.flatten_cons, List.append_assoc]
    -- What is consumed leaves its place among the pulls and goes to the end.
    refine List.Perm.append_left _ (List.perm_append_comm.trans ?_)
    simp only [List.append_assoc, List.Perm.refl]

end Holding

open StagingArea (Arrived Compact InTurn Oldest Regrouped staging)

/-- The books of the groups of a staging area, at a reading of the clock. -/
structure Tracks (start : Moment) (book : GroupName → Holding M) (now : Span)
    (area : StagingArea M) :
    Prop where
  kept : ∀ g, (book g).Kept (area.group g)
  turn : ∀ g, InTurn (book g).added
  arrived : ∀ g, Arrived (book g).added (start.after now)
  compact : area.Compact

namespace Tracks

variable {start : Moment} {book : GroupName → Holding M} {now span : Span} {area : StagingArea M}
  {g : GroupName} {messages pulled : List (Staged M)} {before after : List (List (Staged M))}

theorem empty (start : Moment) (now : Span) :
    Tracks start (fun _ => .nothing) now (.empty : StagingArea M) where
  kept g := by
    rw [StagingArea.group_empty]
    exact Holding.kept_nothing
  turn _ := .nil
  arrived _ _ hs := by cases hs
  compact := StagingArea.compact_empty

theorem later (h : Tracks start book now area) (hlater : now ≤ span) :
    Tracks start book span area where
  kept := h.kept
  turn := h.turn
  arrived g s hs := Int.le_trans (h.arrived g s hs) (start.sinceEpoch_after_le hlater)
  compact := h.compact

theorem update (h : Tracks start book now area) {area' : StagingArea M} {entry : Holding M}
    (hgroup : Regrouped area area' g messages) (hcompact : area'.Compact)
    (hkept : entry.Kept messages) (hturn : InTurn entry.added)
    (harrived : Arrived entry.added (start.after now)) :
    Tracks start (Function.update book g entry) now area' where
  kept := by
    refine (Function.forall_update_iff book fun g h => h.Kept (area'.group g)).2
      ⟨?_, fun other hother => ?_⟩
    · rw [hgroup.group]
      exact hkept
    · rw [hgroup.others other hother]
      exact h.kept other
  turn := (Function.forall_update_iff book fun _ h => InTurn h.added).2
    ⟨hturn, fun other _ => h.turn other⟩
  arrived := (Function.forall_update_iff book fun _ h => Arrived h.added (start.after now)).2
    ⟨harrived, fun other _ => h.arrived other⟩
  compact := hcompact

theorem add (h : Tracks start book now area) (g : GroupName) (id : Uuid) (message : M) :
    Tracks start (Function.update book g
      { book g with added := (book g).added ++ [⟨id, start.after now, message⟩] }) now
      (area.add g ⟨id, start.after now, message⟩) := by
  refine h.update (area.regrouped_setGroup g _) (h.compact.setGroup g _) ((h.kept g).add _) ?_ ?_
  · refine List.pairwise_append.2 ⟨h.turn g, List.pairwise_singleton .., fun s hs t ht => ?_⟩
    rw [List.mem_singleton.1 ht]
    exact h.arrived g s hs
  · intro s hs
    rcases List.mem_append.1 hs with hs | hs
    · exact h.arrived g s hs
    · exact Int.le_of_eq (by rw [List.mem_singleton.1 hs])

theorem pull (h : Tracks start book now area) (g : GroupName) (max : Option Nat) :
    Tracks start (Function.update book g
      { book g with held := (book g).held ++ [(area.pull g max).1] }) now (area.pull g max).2 := by
  have hkept := h.kept g
  rw [← area.pull_append_group g max] at hkept
  exact h.update (area.regrouped_setGroup g _) (h.compact.setGroup g _)
    (by simpa [StagingArea.pull] using hkept.pull) (h.turn g) (h.arrived g)

theorem requeue (h : Tracks start book now area) (hheld : (book g).held = before ++ [pulled]) :
    Tracks start (Function.update book g { book g with held := before }) now
      (area.requeue g pulled) :=
  h.update (area.regrouped_setGroup g _) (h.compact.setGroup g _) ((h.kept g).requeue hheld)
    (h.turn g) (h.arrived g)

theorem consume (h : Tracks start book now area)
    (hheld : (book g).held = before ++ pulled :: after) :
    Tracks start (Function.update book g { book g with
      held := before ++ after
      consumed := (book g).consumed ++ pulled }) now area :=
  h.update ⟨rfl, fun _ _ => rfl⟩ h.compact ((h.kept g).consume hheld) (h.turn g) (h.arrived g)

theorem sublist_added (h : Tracks start book now area) (g : GroupName) :
    (area.group g).Sublist (book g).added :=
  (List.sublist_append_right ..).trans (h.kept g).ordered

end Tracks

section

variable (cell : Cell (StateM σ) (StagingArea M)) (supply : Surroundings (StateM σ))
  (start : Moment)
  (area : σ → StagingArea M)

/-- The states that a staging area in a cell comes to from an empty one, with the books of its
groups and the last reading of the clock. Each pull is entered as held. A pull may be given back as
long as it is the last one held of its group; any pull may be consumed. What else happens meanwhile
leaves the staging area alone. -/
inductive Custody : (GroupName → Holding M) → Span → σ → Prop
  | opened {a : σ} (now : Span) (hempty : area a = .empty) :
      Custody (fun _ => .nothing) now a
  | age {book : GroupName → Holding M} {now span : Span} {a b c : σ} {g : GroupName}
      {r : Except String (Option Span)} (hbook : Custody book now a)
      (hspan : Runs supply.elapsed a span c) (hlater : now ≤ span)
      (hrun : Runs ((staging cell supply start).age g.channel g.key) a r b) :
      Custody book span b
  | size {book : GroupName → Holding M} {now : Span} {a b : σ} {g : GroupName}
      {r : Except String Nat} (hbook : Custody book now a)
      (hrun : Runs ((staging cell supply start).size g.channel g.key) a r b) :
      Custody book now b
  | add {book : GroupName → Holding M} {now span : Span} {a b c d : σ} {g : GroupName} {id : Uuid}
      {message : M} {r : Except String Unit} (hbook : Custody book now a)
      (hspan : Runs supply.elapsed a span c) (hlater : now ≤ span)
      (hid : Runs supply.freshId c id d)
      (hrun : Runs ((staging cell supply start).add g.channel g.key message) a r b) :
      Custody (Function.update book g
        { book g with added := (book g).added ++ [⟨id, start.after span, message⟩] }) span b
  | pull {book : GroupName → Holding M} {now : Span} {a b : σ} {g : GroupName} {max : Option Nat}
      {pulled : List (Staged M)} (hbook : Custody book now a)
      (hrun : Runs ((staging cell supply start).pull g.channel g.key max) a
        (.ok pulled) b) :
      Custody (Function.update book g
        { book g with held := (book g).held ++ [pulled] }) now b
  | requeue {book : GroupName → Holding M} {now : Span} {a b : σ} {g : GroupName}
      {before : List (List (Staged M))} {pulled : List (Staged M)} {r : Except String Unit}
      (hbook : Custody book now a)
      (hheld : (book g).held = before ++ [pulled])
      (hrun : Runs ((staging cell supply start).requeue g.channel g.key pulled) a r b) :
      Custody (Function.update book g { book g with held := before }) now b
  | consume {book : GroupName → Holding M} {now : Span} {a : σ} {g : GroupName}
      {before after : List (List (Staged M))} {pulled : List (Staged M)}
      (hbook : Custody book now a)
      (hheld : (book g).held = before ++ pulled :: after) :
      Custody (Function.update book g { book g with
        held := before ++ after
        consumed := (book g).consumed ++ pulled }) now a
  | meanwhile {book : GroupName → Holding M} {now : Span} {a b : σ}
      (hbook : Custody book now a) (hsame : area b = area a) :
      Custody book now b

/-- What a staging area in a cell does in a state, with the books of its groups and the last reading
of the clock. -/
structure Faithful (book : GroupName → Holding M) (now : Span) (a : σ) : Prop where
  kept : ∀ g, (book g).Kept ((area a).group g)
  turn : ∀ g, InTurn ((area a).group g)
  compact : (area a).Compact
  age : ∀ g span c r b, now ≤ span → Runs supply.elapsed a span c →
    Runs ((staging cell supply start).age g.channel g.key) a r b → area b = area a ∧
      ∃ age, r = .ok age ∧ Oldest ((area a).group g) (start.after span) age
  size : ∀ g r b, Runs ((staging cell supply start).size g.channel g.key) a r b →
    area b = area a ∧ r = .ok ((area a).group g).length
  add : ∀ g message r b,
    Runs ((staging cell supply start).add g.channel g.key message) a r b → r = .ok () ∧
      ∃ span c id d, Runs supply.elapsed a span c ∧ Runs supply.freshId c id d ∧
        Regrouped (area a) (area b) g ((area a).group g ++ [⟨id, start.after span, message⟩])
  pull : ∀ g max r b,
    Runs ((staging cell supply start).pull g.channel g.key max) a r b →
      ∃ pulled rest, r = .ok pulled ∧ (area a).group g = pulled ++ rest ∧
        pulled.length = max.elim ((area a).group g).length (min · ((area a).group g).length) ∧
        Regrouped (area a) (area b) g rest
  requeue : ∀ g messages r b,
    Runs ((staging cell supply start).requeue g.channel g.key messages) a r b →
      r = .ok () ∧ Regrouped (area a) (area b) g (messages ++ (area a).group g)

end

section Custody

variable {cell : Cell (StateM σ) (StagingArea M)} {supply : Surroundings (StateM σ)}
  {start : Moment} {area : σ → StagingArea M} {book : GroupName → Holding M} {now : Span} {a : σ}

theorem tracks_of_custody (hcell : cell.Holds area id fun v _ => v)
    (hquiet : ∀ a span b, Runs supply.elapsed a span b → area b = area a)
    (hfresh : ∀ a id b, Runs supply.freshId a id b → area b = area a)
    (h : Custody cell supply start area book now a) : Tracks start book now (area a) := by
  have hgranting := StagingArea.granting_staging cell supply start
  induction h with
  | opened now hempty =>
    rw [hempty]
    exact .empty start now
  | age hbook hspan hlater hrun ih =>
    obtain ⟨age, rfl⟩ := hgranting.age _ _ _ _ _ hrun
    rw [(StagingArea.of_age hcell hspan (hquiet _ _ _ hspan) hrun).2]
    exact ih.later hlater
  | size hbook hrun ih =>
    obtain ⟨n, rfl⟩ := hgranting.size _ _ _ _ _ hrun
    rw [(StagingArea.of_size hcell hrun).2]
    exact ih
  | add hbook hspan hlater hid hrun ih =>
    obtain ⟨_, rfl⟩ := hgranting.add _ _ _ _ _ _ hrun
    have hsame := (hfresh _ _ _ hid).trans (hquiet _ _ _ hspan)
    rw [StagingArea.of_add hcell hspan hid hsame hrun]
    exact (ih.later hlater).add _ _ _
  | pull hbook hrun ih =>
    obtain ⟨rfl, hrest⟩ := StagingArea.of_pull hcell hrun
    rw [hrest]
    exact ih.pull _ _
  | requeue hbook hheld hrun ih =>
    obtain ⟨_, rfl⟩ := hgranting.requeue _ _ _ _ _ _ hrun
    rw [StagingArea.of_requeue hcell hrun]
    exact ih.requeue hheld
  | consume hbook hheld ih => exact ih.consume hheld
  | meanwhile hbook hsame ih =>
    rw [hsame]
    exact ih

/-- Whatever was asked of a staging area in a cell, the pulls of a group that are held and the group
behind them are in the order in which messages were added, and every message is in the group, held
or consumed. A pull takes the oldest messages, so many of them or all, and the age of a group is the
largest age of its messages. What is asked about one group leaves the others alone, and no group is
empty. -/
theorem faithful_of_custody (hcell : cell.Holds area id fun v _ => v)
    (hquiet : ∀ a span b, Runs supply.elapsed a span b → area b = area a)
    (hfresh : ∀ a id b, Runs supply.freshId a id b → area b = area a)
    (h : Custody cell supply start area book now a) :
    Faithful cell supply start area book now a := by
  have hgranting := StagingArea.granting_staging cell supply start
  have htracks := tracks_of_custody hcell hquiet hfresh h
  -- What is queued was added in turn, so the front message of a group is the oldest.
  have hturn : ∀ g, InTurn ((area a).group g) := fun g => (htracks.turn g).sublist
    (htracks.sublist_added g)
  refine ⟨htracks.kept, hturn, htracks.compact, ?age, ?size, ?add, ?pull, ?requeue⟩
  case age =>
    intro g span c r b hlater hspan hrun
    obtain ⟨age, rfl⟩ := hgranting.age _ _ _ _ _ hrun
    obtain ⟨rfl, hsame⟩ := StagingArea.of_age hcell hspan (hquiet _ _ _ hspan) hrun
    refine ⟨hsame, _, rfl, StagingArea.oldest_age (hturn g) fun s hs => ?_⟩
    exact (htracks.later hlater).arrived g s ((htracks.sublist_added g).subset hs)
  case size =>
    intro g r b hrun
    obtain ⟨n, rfl⟩ := hgranting.size _ _ _ _ _ hrun
    obtain ⟨rfl, hsame⟩ := StagingArea.of_size hcell hrun
    exact ⟨hsame, rfl⟩
  case add =>
    intro g message r b hrun
    obtain ⟨_, rfl⟩ := hgranting.add _ _ _ _ _ _ hrun
    obtain ⟨span, c, hspan⟩ := Runs.total supply.elapsed a
    obtain ⟨id, d, hid⟩ := Runs.total supply.freshId c
    have hsame := (hfresh _ _ _ hid).trans (hquiet _ _ _ hspan)
    refine ⟨rfl, span, c, id, d, hspan, hid, ?_⟩
    rw [StagingArea.of_add hcell hspan hid hsame hrun]
    exact (area a).regrouped_setGroup g _
  case pull =>
    intro g max r b hrun
    obtain ⟨pulled, rfl⟩ := hgranting.pull _ _ _ _ _ _ hrun
    obtain ⟨rfl, hrest⟩ := StagingArea.of_pull hcell hrun
    refine ⟨_, _, rfl, ((area a).pull_append_group g max).symm, ?_, ?_⟩
    · rw [id, StagingArea.length_pull]
      cases max <;> rfl
    · rw [hrest, id, StagingArea.pull, StagingArea.group_setGroup_self]
      exact (area a).regrouped_setGroup g _
  case requeue =>
    intro g messages r b hrun
    obtain ⟨_, rfl⟩ := hgranting.requeue _ _ _ _ _ _ hrun
    rw [StagingArea.of_requeue hcell hrun]
    exact ⟨rfl, (area a).regrouped_setGroup g _⟩

end Custody

namespace World

theorem holds_area (n : Nat) :
    (areaCell cell n).Holds (fun w : World => w.area n) id fun v _ => v where
  get := by
    intro w v w' h
    obtain ⟨rfl, rfl⟩ := runs_area_get.1 h
    exact ⟨rfl, rfl⟩
  set := by
    intro v w u w' h
    obtain rfl := runs_area_set.1 h
    simp [area]

/-- One message is pulled and given back after two others were added, the second of them
meanwhile. -/
theorem faithful_givenBack :
    let message (name : String) : ConflictBatch := ⟨name, [], []⟩
    let g : GroupName := ⟨"weak", "tally-1"⟩
    ∃ book a, Custody (areaCell cell 1) (surroundings cell) .epoch (fun w => w.area 1) book
        (.ofSeconds 20) a ∧
      Faithful (areaCell cell 1) (surroundings cell) .epoch (fun w => w.area 1) book
        (.ofSeconds 20) a ∧
      ((a.area 1).group g).map Staged.message =
        [message "first", message "second", message "third"] ∧
      (a.area 1).age g (Moment.epoch.after (.ofSeconds 20)) = some (.ofSeconds 20) := by
  intro message g
  let add (name : String) := ((site .epoch).area 1).add "weak" "tally-1" (message name)
  let pull := ((site .epoch).area 1).pull "weak" "tally-1" (some 1)
  let requeue := ((site .epoch).area 1).requeue "weak" "tally-1"
  obtain ⟨r₁, w₁, h₁⟩ := Runs.total (add "first") (start .epoch)
  obtain ⟨r₂, w₂, h₂⟩ := Runs.total (add "second") (w₁.advance (.ofSeconds 10))
  obtain ⟨r₃, w₃, h₃⟩ := Runs.total pull w₂
  obtain ⟨r₄, w₄, h₄⟩ := Runs.total (add "third") (w₃.advance (.ofSeconds 10))
  have hfacts : (let w₁ := ((add "first").run (start .epoch)).2
      let w₂ := ((add "second").run (w₁.advance (.ofSeconds 10))).2
      let third := pull.run w₂
      let w₄ := ((add "third").run (third.2.advance (.ofSeconds 10))).2
      third.1.toOption.any fun pulled =>
        let w₅ := ((requeue pulled).run w₄).2
        decide ((w₁.advance (.ofSeconds 10)).elapsed = .ofSeconds 10 ∧
          (third.2.advance (.ofSeconds 10)).elapsed = .ofSeconds 20 ∧
          ((w₅.area 1).group g).map Staged.message =
            [message "first", message "second", message "third"] ∧
          (w₅.area 1).age g (Moment.epoch.after (.ofSeconds 20)) =
            some (.ofSeconds 20))) = true := by
    decide +kernel
  simp only [h₁.run_eq, h₂.run_eq, h₃.run_eq, h₄.run_eq] at hfacts
  obtain ⟨pulled, hpulled, hgiven⟩ := (Option.any_eq_true ..).1 hfacts
  obtain ⟨r₅, w₅, h₅⟩ := Runs.total (requeue pulled) w₄
  simp only [h₅.run_eq, decide_eq_true_eq] at hgiven
  obtain ⟨hten, htwenty, hmessages, hage⟩ := hgiven
  rw [except_toOption_eq_some.1 hpulled] at h₃
  have hquiet : ∀ a span b, Runs (surroundings cell).elapsed a span b → b.area 1 = a.area 1 := by
    intro a span b h
    rw [(runs_elapsed.1 h).2]
  have hfresh : ∀ a id b, Runs (surroundings cell).freshId a id b → b.area 1 = a.area 1 := by
    intro a id b h
    obtain ⟨i, rfl⟩ := runs_freshId h
    rfl
  obtain ⟨id₁, v₁, hid₁⟩ := Runs.total (surroundings cell).freshId (start .epoch)
  obtain ⟨id₂, v₂, hid₂⟩ := Runs.total (surroundings cell).freshId (w₁.advance (.ofSeconds 10))
  obtain ⟨id₃, v₃, hid₃⟩ := Runs.total (surroundings cell).freshId (w₃.advance (.ofSeconds 10))
  have hopened : Custody (areaCell cell 1) (surroundings cell) .epoch (fun w => w.area 1)
      (fun _ => .nothing) .zero (start .epoch) := .opened _ (by simp [area, start])
  have hfirst := hopened.add (g := g) (runs_elapsed.2 ⟨rfl, rfl⟩) (Nat.le_refl _) hid₁ h₁
  have hsecond := (hfirst.meanwhile (b := w₁.advance (.ofSeconds 10)) rfl).add (g := g)
    (runs_elapsed.2 ⟨hten.symm, rfl⟩) (Nat.zero_le _) hid₂ h₂
  have hpull := hsecond.pull (g := g) h₃
  have hthird := (hpull.meanwhile (b := w₃.advance (.ofSeconds 10)) rfl).add (g := g)
    (runs_elapsed.2 ⟨htwenty.symm, rfl⟩) (by decide) hid₃ h₄
  have hback := hthird.requeue (g := g) (show _ = [] ++ [pulled] by simp [Holding.nothing]) h₅
  exact ⟨_, w₅, hback, faithful_of_custody (holds_area 1) hquiet hfresh hback, hmessages, hage⟩

end World

end Chronicle
