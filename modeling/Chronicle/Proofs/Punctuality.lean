import Chronicle.Proofs.DueTimes
import Chronicle.Proofs.PlainSite
import Chronicle.Proofs.Staging

/-!
# An agenda and the uses that were made of it

What an agenda in a cell holds is told by the uses that were made of it, by whomever: an item that
was scheduled since it was last taken is due at the earliest of the times it was scheduled for. A
take gives the items whose time has come, each once and the earliest first. So an item stays until
the first take at its time or later, and that take gives it.

Uses are listed newest first, and whoever has the cell can make them. The clock is only read:
nothing here depends on what it shows from one use to the next.
-/

namespace Chronicle

variable {σ α : Type}

namespace Agenda

/-- A use of an agenda, with what the clock showed. -/
inductive Use (α : Type) where
  | scheduled (item : α) (time delay : Span)
  | taken (items : List α) (now : Span)
deriving DecidableEq

/-- The use does not bring the item forward from the time, and takes nothing that is due then. -/
def Use.Before (item : α) (due : Span) : Use α → Prop
  | .scheduled other time delay => other = item → due ≤ time + delay
  | .taken _ now => now < due

variable [DecidableEq α] {a : Agenda α} {uses : List (Use α)} {item : α} {due now : Span}

/-- The times that an item was scheduled for since it was last taken. -/
def dues (item : α) : List (Use α) → List Span
  | [] => []
  | .scheduled other time delay :: older =>
    if other = item then (time + delay) :: dues item older else dues item older
  | .taken items _ :: older => if item ∈ items then [] else dues item older

/-- An agenda holds what its uses say: no item twice, and each with the earliest of its times. -/
structure Minds (a : Agenda α) (uses : List (Use α)) : Prop where
  once : (a.entries.map Prod.fst).Nodup
  due : ∀ item due, a.dueTime item = some due ↔ Earliest due (dues item uses)

theorem Minds.unscheduled (h : a.Minds uses) (item : α) :
    a.dueTime item = none ↔ dues item uses = [] := by
  rw [Option.eq_none_iff_forall_ne_some, ← not_iff_not, ← ne_eq (dues item uses),
    ← exists_earliest_iff]
  simp [h.due]

theorem minds_empty : (empty : Agenda α).Minds [] where
  once := List.nodup_nil
  due item due := by simp [dues, Earliest]

theorem Minds.schedule (h : a.Minds uses) (item : α) (time delay : Span) :
    (a.schedule item (time + delay)).Minds (.scheduled item time delay :: uses) where
  once := nodup_schedule h.once item _
  due other due := by
    by_cases hi : item = other
    · subst hi
      rw [dueTime_schedule_self, dues, if_pos rfl, Option.some.injEq]
      have hfirst : Earliest ((a.dueTime item).elim (time + delay) (earlier · (time + delay)))
          ((time + delay) :: dues item uses) := by
        cases hdue : a.dueTime item with
        | none =>
          rw [(h.unscheduled item).1 hdue]
          exact .singleton _
        | some known => exact ((h.due item known).1 hdue).cons _
      exact ⟨fun heq => heq ▸ hfirst, hfirst.unique⟩
    · rw [dueTime_schedule_of_ne a (Ne.symm hi), dues, if_neg hi]
      exact h.due other due

theorem Minds.takeDue (h : a.Minds uses) (now : Span) :
    (a.takeDue now).2.Minds (.taken (a.takeDue now).1 now :: uses) where
  once := (List.nodup_append.1 (nodup_takeDue h.once now)).2.1
  due item due := by
    rw [dueTime_takeDue h.once, dues]
    split
    · simp [Earliest]
    · exact h.due item due

/-- Every take of a history gave the items whose time had come. -/
def Fair (uses : List (Use α)) : Prop :=
  ∀ items now older, .taken items now :: older <:+ uses →
    ∀ item, item ∈ items ↔ ∃ due ≤ now, Earliest due (dues item older)

theorem Fair.waits {between older : List (Use α)} (h : Fair (between ++ older))
    (hdue : Earliest due (dues item older)) (hbefore : ∀ use ∈ between, use.Before item due) :
    Earliest due (dues item (between ++ older)) ∧
      ∀ items now, .taken items now ∈ between → item ∉ items := by
  induction between with
  | nil => exact ⟨hdue, by simp⟩
  | cons use between ih =>
    have hfair : Fair (between ++ older) := fun items now rest hrest =>
      h items now rest (hrest.trans (List.suffix_cons ..))
    obtain ⟨hwaits, hnot⟩ := ih hfair fun other hother =>
      hbefore other (List.mem_cons_of_mem _ hother)
    have huse := hbefore use (List.mem_cons_self ..)
    cases use with
    | scheduled other time delay =>
      refine ⟨?_, fun items now hmem => hnot items now (by simpa using hmem)⟩
      rw [List.cons_append, dues]
      split
      · rename_i hother
        exact hwaits.cons_of_le (huse hother)
      · exact hwaits
    | taken items now =>
      -- The take was fair, so it would have found the item due at a time that is not the earliest.
      have hstays : item ∉ items := by
        intro hmem
        obtain ⟨early, hearly, hfirst⟩ := (h items now _ (List.suffix_refl _) item).1 hmem
        rw [hfirst.unique hwaits] at hearly
        exact absurd hearly (Nat.not_le_of_lt huse)
      refine ⟨?_, fun others time hmem => ?_⟩
      · rw [List.cons_append, dues, if_neg hstays]
        exact hwaits
      · rcases List.mem_cons.1 hmem with heq | hmem
        · cases heq
          exact hstays
        · exact hnot others time hmem

theorem fair_nil : Fair ([] : List (Use α)) := fun _ _ _ h => by simp at h

theorem Fair.schedule (h : Fair uses) (item : α) (time delay : Span) :
    Fair (.scheduled item time delay :: uses) := by
  intro items now older hsuffix
  rcases List.suffix_cons_iff.1 hsuffix with heq | hsuffix
  · cases heq
  · exact h items now older hsuffix

theorem Fair.takeDue (h : Fair uses) (hminds : a.Minds uses) (now : Span) :
    Fair (.taken (a.takeDue now).1 now :: uses) := by
  intro items time older hsuffix
  rcases List.suffix_cons_iff.1 hsuffix with heq | hsuffix
  · cases heq
    intro item
    simp only [mem_takeDue_iff hminds.once, hminds.due]
  · exact h items time older hsuffix

/-- What a take at a time gives and what it leaves. -/
structure Released (a b : Agenda α) (now : Span) (items : List α) : Prop where
  once : items.Nodup
  due : ∀ item, item ∈ items ↔ ∃ due ≤ now, a.dueTime item = some due
  ordered : items.Pairwise fun x y =>
    ∀ s t, a.dueTime x = some s → a.dueTime y = some t → s ≤ t
  left : ∀ item, b.dueTime item = if item ∈ items then none else a.dueTime item
  next : ∀ due, b.nextDue = some due → now < due

theorem released_takeDue (hn : (a.entries.map Prod.fst).Nodup) (now : Span) :
    Released a (a.takeDue now).2 now (a.takeDue now).1 where
  once := (List.nodup_append.1 (nodup_takeDue hn now)).1
  due _ := mem_takeDue_iff hn
  ordered := pairwise_takeDue hn now
  left := dueTime_takeDue hn now
  next _ := lt_of_nextDue_takeDue

theorem Minds.next (h : a.Minds uses) : a.nextDue = some due ↔
    (∃ item, a.dueTime item = some due) ∧
      ∀ item known, a.dueTime item = some known → due ≤ known := by
  have hentry : ∀ item known, (item, known) ∈ a.entries ↔ a.dueTime item = some known :=
    fun item known => ⟨dueTime_of_mem_entries h.once, mem_entries_of_dueTime⟩
  rw [nextDue_eq_some_iff, Earliest]
  simp only [List.mem_map, Prod.exists, exists_eq_right, hentry, forall_exists_index]
  exact and_congr_right fun _ => forall_comm

theorem Minds.idle (h : a.Minds uses) :
    a.nextDue = none ↔ ∀ item, dues item uses = [] := by
  simp only [← h.unscheduled, dueTime_eq_none, ← List.eq_nil_iff_forall_not_mem,
    List.map_eq_nil_iff]
  obtain ⟨entries⟩ := a
  cases entries <;> simp [nextDue]

end Agenda

open Agenda (Use dues Earliest Released)

section

variable [DecidableEq α] (cell : Cell (StateM σ) (Agenda α)) (supply : Surroundings (StateM σ))
  (agenda : σ → Agenda α)

/-- The states that an agenda in a cell comes to from an empty one, with the uses that were made
of it, the newest first. What else happens meanwhile leaves the agenda alone, and so does an attempt
to schedule an item for a time that the clock cannot show: it fails before it gets to the agenda. -/
inductive Diary : List (Use α) → σ → Prop
  | opened {a : σ} (hempty : agenda a = .empty) : Diary [] a
  | scheduled {uses : List (Use α)} {a b c : σ} {item : α} {time delay : Span} {u : Unit}
      (huses : Diary uses a) (htime : Runs supply.elapsed a time c)
      (hshown : time + delay ≤ .latest) (hrun : Runs (cell.schedule supply item delay) a u b) :
      Diary (.scheduled item time delay :: uses) b
  | taken {uses : List (Use α)} {a b c : σ} {items : List α} {now : Span}
      (huses : Diary uses a) (hnow : Runs supply.elapsed a now c)
      (hrun : Runs (cell.takeDue supply) a items b) :
      Diary (.taken items now :: uses) b
  | meanwhile {uses : List (Use α)} {a b : σ} (huses : Diary uses a)
      (hsame : agenda b = agenda a) : Diary uses b

/-- What an agenda in a cell does in a state, after some uses. -/
structure Punctual (uses : List (Use α)) (a : σ) : Prop where
  once : ((agenda a).entries.map Prod.fst).Nodup
  held : ∀ item, item ∈ (agenda a).entries.map Prod.fst ↔ dues item uses ≠ []
  due : ∀ item due, (agenda a).dueTime item = some due ↔ Earliest due (dues item uses)
  shown : ∀ item due, (agenda a).dueTime item = some due → due ≤ .latest
  next : ∀ due, (agenda a).nextDue = some due ↔
    (∃ item, (agenda a).dueTime item = some due) ∧
      ∀ item known, (agenda a).dueTime item = some known → due ≤ known
  idle : (agenda a).nextDue = none ↔ ∀ item, dues item uses = []
  past : Agenda.Fair uses
  take : ∀ now items b c, Runs supply.elapsed a now c → Runs (cell.takeDue supply) a items b →
    Released (agenda a) (agenda b) now items
  /-- An item that was due at a time is given by the first take at that time or later, and by none
  before, unless a use brings it forward. -/
  first : ∀ between older item due, uses = between ++ older → Earliest due (dues item older) →
    (∀ use ∈ between, use.Before item due) →
    (∀ items now, .taken items now ∈ between → item ∉ items) ∧
      ∀ now items b c, Runs supply.elapsed a now c → Runs (cell.takeDue supply) a items b →
        (item ∈ items ↔ due ≤ now)

end

section Diary

variable [DecidableEq α] {cell : Cell (StateM σ) (Agenda α)} {supply : Surroundings (StateM σ)}
  {agenda : σ → Agenda α} {uses : List (Use α)} {a : σ}

theorem minds_of_diary (hcell : cell.Holds agenda id fun v _ => v)
    (hquiet : ∀ a t b, Runs supply.elapsed a t b → agenda b = agenda a)
    (h : Diary cell supply agenda uses a) : (agenda a).Minds uses ∧ Agenda.Fair uses := by
  induction h with
  | opened hempty =>
    rw [hempty]
    exact ⟨Agenda.minds_empty, Agenda.fair_nil⟩
  | scheduled huses htime hshown hrun ih =>
    rw [hcell.schedule htime (hquiet _ _ _ htime) hrun]
    exact ⟨ih.1.schedule _ _ _, ih.2.schedule _ _ _⟩
  | taken huses hnow hrun ih =>
    obtain ⟨rfl, hrest⟩ := hcell.takeDue hnow (hquiet _ _ _ hnow) hrun
    rw [hrest]
    exact ⟨ih.1.takeDue _, ih.2.takeDue ih.1 _⟩
  | meanwhile huses hsame ih =>
    rw [hsame]
    exact ih

/-- Items are scheduled for times that the clock can show. -/
theorem le_latest_of_diary (h : Diary cell supply agenda uses a) (item : α) :
    ∀ due ∈ dues item uses, due ≤ Span.latest := by
  induction h with
  | opened => simp [dues]
  | @scheduled _ _ _ _ other _ _ _ _ _ hshown _ ih =>
    rw [dues]
    split
    · exact List.forall_mem_cons.2 ⟨hshown, ih⟩
    · exact ih
  | taken _ _ _ ih =>
    rw [dues]
    split
    · simp
    · exact ih
  | meanwhile _ _ ih => exact ih

/-- Whatever uses were made of an agenda in a cell, it holds the items that were scheduled since
they were last taken, each once and at the earliest of its times. A take gives the items that are
due, each once and the earliest first, and leaves the others. So an item is given by the first take
at its time or later. -/
theorem punctual_of_diary (hcell : cell.Holds agenda id fun v _ => v)
    (hquiet : ∀ a t b, Runs supply.elapsed a t b → agenda b = agenda a)
    (h : Diary cell supply agenda uses a) : Punctual cell supply agenda uses a := by
  obtain ⟨hminds, hfair⟩ := minds_of_diary hcell hquiet h
  have htake : ∀ now items b c, Runs supply.elapsed a now c →
      Runs (cell.takeDue supply) a items b → Released (agenda a) (agenda b) now items := by
    intro now items b c hnow hrun
    obtain ⟨rfl, hrest⟩ := hcell.takeDue hnow (hquiet _ _ _ hnow) hrun
    rw [hrest]
    exact Agenda.released_takeDue hminds.once now
  refine ⟨hminds.once, fun item => ?held, hminds.due, fun item due hdue => ?shown,
    fun due => hminds.next, hminds.idle, hfair, htake, ?first⟩
  case held =>
    rw [ne_eq, ← hminds.unscheduled, Agenda.dueTime_eq_none, not_not]
  case shown =>
    exact le_latest_of_diary h item due ((hminds.due item due).1 hdue).1
  case first =>
    intro between older item due huses hdue hbefore
    subst huses
    obtain ⟨hwaits, hnot⟩ := hfair.waits hdue hbefore
    refine ⟨hnot, fun now items b c hnow hrun => ?_⟩
    rw [(htake now items b c hnow hrun).due, (hminds.due item due).2 hwaits]
    simp

end Diary

namespace World

theorem holds_agenda (n : Nat) :
    (agendaCell cell n).Holds (fun w : World => w.agenda n) id fun v _ => v where
  get := by
    intro w v w' h
    obtain ⟨rfl, rfl⟩ := runs_agenda_get.1 h
    exact ⟨rfl, rfl⟩
  set := by
    intro v w u w' h
    obtain rfl := runs_agenda_set.1 h
    simp [agenda]

/-- One item is due after thirty seconds, another one is scheduled for the fifteenth. The second is
taken after twenty seconds, and the first one then stays until its time. -/
theorem punctual_thirtySeconds :
    let agenda := agendaCell cell 1
    let supply := surroundings cell
    let late : StreamRef := ⟨"tally", "default", "t-1", []⟩
    let early : StreamRef := ⟨"tally", "default", "t-2", []⟩
    let uses := [.taken [early] (.ofSeconds 20), .scheduled early (.ofSeconds 10) (.ofSeconds 5),
      .scheduled late .zero (.ofSeconds 30)]
    ∃ a, Diary agenda supply (fun w => w.agenda 1) uses a ∧
      Punctual agenda supply (fun w => w.agenda 1) uses a ∧
      (a.agenda 1).nextDue = some (.ofSeconds 30) := by
  intro agenda supply late early uses
  obtain ⟨u, w₁, hlate⟩ := Runs.total (agenda.schedule supply late (.ofSeconds 30)) (start .epoch)
  obtain ⟨u', w₂, hearly⟩ := Runs.total (agenda.schedule supply early (.ofSeconds 5))
    (w₁.advance (.ofSeconds 10))
  obtain ⟨items, w₃, htaken⟩ := Runs.total (agenda.takeDue supply) (w₂.advance (.ofSeconds 10))
  have hfacts : (let w₁ := ((agenda.schedule supply late (.ofSeconds 30)).run (start .epoch)).2
      let w₂ := ((agenda.schedule supply early (.ofSeconds 5)).run (w₁.advance (.ofSeconds 10))).2
      let third := (agenda.takeDue supply).run (w₂.advance (.ofSeconds 10))
      (w₁.advance (.ofSeconds 10)).elapsed = .ofSeconds 10 ∧
        (w₂.advance (.ofSeconds 10)).elapsed = .ofSeconds 20 ∧ third.1 = [early] ∧
        (third.2.agenda 1).nextDue = some (.ofSeconds 30)) := by
    decide +kernel
  simp only [hlate.run_eq, hearly.run_eq, htaken.run_eq] at hfacts
  obtain ⟨hten, htwenty, rfl, hnext⟩ := hfacts
  have hquiet : ∀ a t b, Runs supply.elapsed a t b → b.agenda 1 = a.agenda 1 := by
    intro a t b h
    rw [(runs_elapsed.1 h).2]
  have hopened : Diary agenda supply (fun w => w.agenda 1) [] (start .epoch) :=
    .opened (by simp [World.agenda, start, Agenda.empty])
  have hfirst := hopened.scheduled (runs_elapsed.2 ⟨rfl, rfl⟩) (by decide) hlate
  have hsecond := (hfirst.meanwhile (b := w₁.advance (.ofSeconds 10)) rfl).scheduled
    (runs_elapsed.2 ⟨hten.symm, rfl⟩) (by decide) hearly
  have hthird := (hsecond.meanwhile (b := w₂.advance (.ofSeconds 10)) rfl).taken
    (runs_elapsed.2 ⟨htwenty.symm, rfl⟩) htaken
  exact ⟨w₃, hthird, punctual_of_diary (holds_agenda 1) hquiet hthird, hnext⟩

end World

end Chronicle
