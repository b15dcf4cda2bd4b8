import Mathlib.Data.List.Nodup
import Chronicle.Staging.Agenda

/-!
# Due times

An agenda is known by the due times of its items, and each operation is summed up here by what it
does to them. Scheduling brings one of them forward at most. Taking takes exactly the items whose
time has come, in the order of their times, and leaves the others alone. The next due time is the
earliest of all. An agenda keeps its entries in some order, which only decides between items that
are due at the same time.

Nothing of this depends on how long the agenda has been in use, as long as no item is on it twice.
-/

namespace Chronicle.Agenda

variable {α : Type}

theorem earlier_le_left (s t : Span) : earlier s t ≤ s := by
  unfold earlier
  split
  · exact Nat.le_refl _
  · rename_i h
    exact Nat.le_of_not_le h

theorem earlier_le_right (s t : Span) : earlier s t ≤ t := by
  unfold earlier
  split
  · assumption
  · exact Nat.le_refl _

/-- The time is one of some times, and none of them is before it. -/
def Earliest (time : Span) (times : List Span) : Prop := time ∈ times ∧ ∀ t ∈ times, time ≤ t

theorem Earliest.unique {s t : Span} {times : List Span} (hs : Earliest s times)
    (ht : Earliest t times) : s = t := by
  have hnanos : s.nanos = t.nanos := Nat.le_antisymm (hs.2 t ht.1) (ht.2 s hs.1)
  cases s
  cases t
  exact congrArg Span.mk hnanos

theorem Earliest.singleton (time : Span) : Earliest time [time] := by
  refine ⟨List.mem_singleton_self _, fun t ht => ?_⟩
  rw [List.mem_singleton.1 ht]
  exact Nat.le_refl _

theorem Earliest.cons {s : Span} {times : List Span} (h : Earliest s times) (t : Span) :
    Earliest (earlier s t) (t :: times) := by
  refine ⟨?_, fun u hu => ?_⟩
  · unfold earlier
    split
    · exact List.mem_cons_of_mem _ h.1
    · exact List.mem_cons_self ..
  · rcases List.mem_cons.1 hu with rfl | hu
    · exact earlier_le_right ..
    · exact Nat.le_trans (earlier_le_left s t) (h.2 u hu)

theorem Earliest.cons_of_le {s t : Span} {times : List Span} (h : Earliest s times) (hle : s ≤ t) :
    Earliest s (t :: times) := by
  have hcons := h.cons t
  rwa [earlier, if_pos hle] at hcons

theorem exists_earliest_iff {times : List Span} : (∃ time, Earliest time times) ↔ times ≠ [] := by
  constructor
  · rintro ⟨time, hmem, -⟩
    exact List.ne_nil_of_mem hmem
  · intro hne
    induction times with
    | nil => exact absurd rfl hne
    | cons t rest ih =>
      by_cases hrest : rest = []
      · subst hrest
        exact ⟨t, .singleton t⟩
      · obtain ⟨time, htime⟩ := ih hrest
        exact ⟨_, htime.cons t⟩

private theorem earliest_foldl (entries : List (α × Span)) {time : Span} {times : List Span}
    (h : Earliest time times) :
    Earliest (entries.foldl (fun acc e => earlier acc e.2) time)
      ((entries.map Prod.snd).reverse ++ times) := by
  induction entries generalizing time times with
  | nil => exact h
  | cons e rest ih => simpa using ih (h.cons e.2)

theorem nextDue_eq_some_iff {a : Agenda α} {due : Span} :
    a.nextDue = some due ↔ Earliest due (a.entries.map Prod.snd) := by
  obtain ⟨entries⟩ := a
  cases entries with
  | nil => simp [nextDue, Earliest]
  | cons e rest =>
    have hnext : Earliest (rest.foldl (fun acc e => earlier acc e.2) e.2)
        (((e :: rest).map Prod.snd)) := by
      obtain ⟨hmem, hleast⟩ := earliest_foldl rest (.singleton e.2)
      exact ⟨by simpa [or_comm] using hmem, fun t ht => hleast t (by simpa [or_comm] using ht)⟩
    simp only [nextDue, Option.some.injEq]
    exact ⟨fun h => h ▸ hnext, hnext.unique⟩

variable [DecidableEq α] {a : Agenda α} {item other : α} {now due : Span}

theorem dueTime_eq_none : a.dueTime item = none ↔ item ∉ a.entries.map Prod.fst := by
  simp only [dueTime, List.lookup_eq_none_iff, bne_iff_ne, List.mem_map, not_exists, not_and]
  exact ⟨fun h entry hmem heq => h entry hmem heq.symm,
    fun h entry hmem heq => h entry hmem heq.symm⟩

theorem mem_entries_of_dueTime (h : a.dueTime item = some due) : (item, due) ∈ a.entries := by
  obtain ⟨before, after, hentries, -⟩ := List.lookup_eq_some_iff.1 h
  simp [hentries]

theorem dueTime_of_mem_entries (hn : (a.entries.map Prod.fst).Nodup)
    (h : (item, due) ∈ a.entries) : a.dueTime item = some due := by
  cases hdue : a.dueTime item with
  | none => exact absurd (List.mem_map_of_mem h) (dueTime_eq_none.1 hdue)
  | some known =>
    have hsame := List.inj_on_of_nodup_map hn (mem_entries_of_dueTime hdue) h rfl
    exact congrArg (fun entry => some entry.2) hsame

/-- The agenda with its entries in another order, if they are the same and no item is there
twice. -/
def shuffle (a : Agenda α) (entries : List (α × Span)) : Agenda α :=
  if entries.Perm a.entries ∧ (entries.map Prod.fst).Nodup then ⟨entries⟩ else a

@[simp] theorem dueTime_shuffle (a : Agenda α) (entries : List (α × Span)) (item : α) :
    (a.shuffle entries).dueTime item = a.dueTime item := by
  unfold shuffle
  split
  · rename_i h
    obtain ⟨hperm, hnodup⟩ := h
    have hn : (a.entries.map Prod.fst).Nodup := (hperm.map Prod.fst).nodup_iff.1 hnodup
    refine Option.ext fun due => ⟨fun hdue => ?_, fun hdue => ?_⟩
    · exact dueTime_of_mem_entries hn (hperm.subset (mem_entries_of_dueTime hdue))
    · exact dueTime_of_mem_entries hnodup (hperm.symm.subset (mem_entries_of_dueTime hdue))
  · rfl

theorem exists_dueTime_schedule_self (a : Agenda α) (item : α) (due : Span) :
    ∃ known ≤ due, (a.schedule item due).dueTime item = some known := by
  refine ⟨_, ?_, dueTime_schedule_self ..⟩
  cases a.dueTime item with
  | none => exact Nat.le_refl _
  | some known => exact earlier_le_right ..

theorem exists_dueTime_schedule (h : a.dueTime item = some due) (other : α) (later : Span) :
    ∃ known ≤ due, (a.schedule other later).dueTime item = some known := by
  by_cases hi : item = other
  · subst hi
    refine ⟨_, ?_, dueTime_schedule_self ..⟩
    rw [h]
    exact earlier_le_left ..
  · rw [dueTime_schedule_of_ne a hi]
    exact ⟨due, Nat.le_refl _, h⟩

theorem map_fst_scheduleIn (item : α) (due : Span) (entries : List (α × Span)) :
    (scheduleIn item due entries).map Prod.fst =
      if item ∈ entries.map Prod.fst then entries.map Prod.fst
      else entries.map Prod.fst ++ [item] := by
  induction entries with
  | nil => rfl
  | cons entry rest ih =>
    obtain ⟨other, known⟩ := entry
    by_cases h : other = item
    · simp [scheduleIn, h]
    · simp only [scheduleIn, if_neg h, List.map_cons, ih, List.mem_cons, Ne.symm h, false_or]
      split <;> rfl

theorem nodup_schedule (hn : (a.entries.map Prod.fst).Nodup) (item : α) (due : Span) :
    ((a.schedule item due).entries.map Prod.fst).Nodup := by
  rw [schedule, map_fst_scheduleIn]
  split
  · exact hn
  · rename_i hnew
    rw [← List.concat_eq_append]
    exact hn.concat hnew

theorem mem_takeDue (h : a.dueTime item = some due) (hle : due ≤ now) :
    item ∈ (a.takeDue now).1 := by
  simp only [takeDue, List.mem_map, List.mem_mergeSort, List.mem_filter]
  exact ⟨(item, due), ⟨mem_entries_of_dueTime h, by simpa using hle⟩, rfl⟩

theorem mem_takeDue_or (h : a.dueTime item = some due) (now : Span) :
    item ∈ (a.takeDue now).1 ∨ (a.takeDue now).2.dueTime item = some due := by
  obtain ⟨entries⟩ := a
  simp only [takeDue, dueTime, List.mem_map, List.mem_mergeSort, List.mem_filter] at h ⊢
  -- The first entry of the item decides; if it stays, it is the first one of those that stay, too.
  induction entries with
  | nil => cases h
  | cons entry rest ih =>
    obtain ⟨other, known⟩ := entry
    by_cases hi : item = other
    · subst hi
      simp only [List.lookup_cons, beq_self_eq_true, Option.some.injEq] at h
      subst h
      by_cases hdue : known ≤ now
      · exact .inl ⟨(item, known), ⟨List.mem_cons_self .., by simpa using hdue⟩, rfl⟩
      · refine .inr ?_
        rw [List.filter_cons_of_pos (by simpa using hdue)]
        simp
    · have hne : (item == other) = false := by simp [hi]
      simp only [List.lookup_cons, hne] at h
      rcases ih h with ⟨found, ⟨hmem, htime⟩, hitem⟩ | hstays
      · exact .inl ⟨found, ⟨List.mem_cons_of_mem _ hmem, htime⟩, hitem⟩
      · refine .inr ?_
        rw [List.filter_cons]
        split
        · rwa [List.lookup_cons, hne]
        · exact hstays

omit [DecidableEq α] in
theorem mem_entries_of_mem_takeDue (h : item ∈ (a.takeDue now).1) :
    item ∈ a.entries.map Prod.fst := by
  simp only [takeDue, List.mem_map, List.mem_mergeSort, List.mem_filter] at h ⊢
  obtain ⟨entry, ⟨hmem, -⟩, hitem⟩ := h
  exact ⟨entry, hmem, hitem⟩

theorem dueTime_rest_eq_none (h : a.dueTime item = none) (now : Span) :
    (a.takeDue now).2.dueTime item = none :=
  dueTime_eq_none.2 fun hrest =>
    dueTime_eq_none.1 h ((List.filter_sublist.map _).subset hrest)

omit [DecidableEq α] in
theorem nodup_takeDue (hn : (a.entries.map Prod.fst).Nodup) (now : Span) :
    ((a.takeDue now).1 ++ (a.takeDue now).2.entries.map Prod.fst).Nodup := by
  refine (List.Perm.nodup_iff ?_).1 hn
  simp only [takeDue, ← List.map_append]
  refine List.Perm.map _ ?_
  refine (List.filter_append_perm _ _).symm.trans (List.Perm.append_right _ ?_)
  exact (List.mergeSort_perm _ _).symm

theorem dueTime_rest (hn : (a.entries.map Prod.fst).Nodup) (hmem : item ∈ (a.takeDue now).1) :
    (a.takeDue now).2.dueTime item = none :=
  dueTime_eq_none.2 fun hrest => (List.nodup_append.1 (nodup_takeDue hn now)).2.2 _ hmem _ hrest rfl

theorem dueTime_takeDue (hn : (a.entries.map Prod.fst).Nodup) (now : Span) (item : α) :
    (a.takeDue now).2.dueTime item =
      if item ∈ (a.takeDue now).1 then none else a.dueTime item := by
  split
  · rename_i hmem
    exact dueTime_rest hn hmem
  · rename_i hnot
    cases hdue : a.dueTime item with
    | none => exact dueTime_rest_eq_none hdue now
    | some due => exact (mem_takeDue_or hdue now).resolve_left hnot

/-- An item is taken exactly if its time has come. -/
theorem mem_takeDue_iff (hn : (a.entries.map Prod.fst).Nodup) :
    item ∈ (a.takeDue now).1 ↔ ∃ due ≤ now, a.dueTime item = some due := by
  constructor
  · intro hmem
    simp only [takeDue, List.mem_map, List.mem_mergeSort, List.mem_filter] at hmem
    obtain ⟨⟨_, due⟩, ⟨hentry, hle⟩, rfl⟩ := hmem
    exact ⟨due, by simpa using hle, dueTime_of_mem_entries hn hentry⟩
  · rintro ⟨due, hle, hdue⟩
    exact mem_takeDue hdue hle

theorem pairwise_takeDue (hn : (a.entries.map Prod.fst).Nodup) (now : Span) :
    (a.takeDue now).1.Pairwise fun x y =>
      ∀ s t, a.dueTime x = some s → a.dueTime y = some t → s ≤ t := by
  simp only [takeDue, List.pairwise_map]
  refine (List.pairwise_mergeSort (fun x y z hxy hyz => ?_) (fun x y => ?_) _).imp_of_mem ?_
  · simp only [decide_eq_true_eq] at hxy hyz ⊢
    exact Nat.le_trans hxy hyz
  · have htotal : x.2 ≤ y.2 ∨ y.2 ≤ x.2 := Nat.le_total ..
    simpa using htotal
  · intro x y hx hy hxy s t hs ht
    simp only [List.mem_mergeSort, List.mem_filter] at hx hy
    rw [dueTime_of_mem_entries hn hx.1, Option.some.injEq] at hs
    rw [dueTime_of_mem_entries hn hy.1, Option.some.injEq] at ht
    subst hs ht
    simpa using hxy

omit [DecidableEq α] in
/-- Once everything is taken that is due, the next time is still to come. -/
theorem lt_of_nextDue_takeDue (h : (a.takeDue now).2.nextDue = some due) : now < due := by
  obtain ⟨entry, hentry, rfl⟩ := List.mem_map.1 (nextDue_eq_some_iff.1 h).1
  have hlate : ¬ entry.2 ≤ now := by simpa using (List.mem_filter.1 hentry).2
  exact Nat.lt_of_not_le hlate

end Chronicle.Agenda
