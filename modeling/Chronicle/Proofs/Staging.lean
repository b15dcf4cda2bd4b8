import Chronicle.Proofs.Runs
import Chronicle.Proofs.Replaying

/-!
# The course of a merge of staged batches

Batches are pulled from the front of their group and merged together with the current one. If the
current batch is to blame for a failure, the pulled ones are merged once more without it. Pulled
batches that were not merged are given back. What is said here holds for every store, and for every
staging area that grants what it is asked.
-/

namespace Chronicle

variable {σ S : Type}

theorem Span.sub_le (a b : Span) : a - b ≤ a := Nat.sub_le ..

/-- A staging area that refuses nothing. -/
structure Staging.Granting {M : Type} (st : Staging (StateM σ) M) : Prop where
  age : ∀ c k w a w', Runs (st.age c k) w a w' → ∃ v, a = .ok v
  size : ∀ c k w a w', Runs (st.size c k) w a w' → ∃ v, a = .ok v
  add : ∀ c k msg w a w', Runs (st.add c k msg) w a w' → ∃ v, a = .ok v
  pull : ∀ c k max w a w', Runs (st.pull c k max) w a w' → ∃ v, a = .ok v
  requeue : ∀ c k msgs w a w', Runs (st.requeue c k msgs) w a w' → ∃ v, a = .ok v

theorem StagingArea.granting_staging {M : Type} (cell : Cell (StateM σ) (StagingArea M))
    (supply : Surroundings (StateM σ)) (start : Moment) : (staging cell supply start).Granting where
  age := by
    intro c k w a w' h
    simp only [staging, runs_bind, runs_pure] at h
    obtain ⟨_, _, -, _, _, -, ha, -⟩ := h
    exact ⟨_, ha⟩
  size := by
    intro c k w a w' h
    simp only [staging, runs_bind, runs_pure] at h
    obtain ⟨_, _, -, ha, -⟩ := h
    exact ⟨_, ha⟩
  add := by
    intro c k msg w a w' h
    simp only [staging, runs_bind, runs_pure] at h
    obtain ⟨_, _, -, _, _, -, _, _, -, ha, -⟩ := h
    exact ⟨_, ha⟩
  pull := by
    intro c k max w a w' h
    simp only [staging, runs_bind, runs_pure] at h
    obtain ⟨_, _, -, _, _, -, ha, -⟩ := h
    exact ⟨_, ha⟩
  requeue := by
    intro c k msgs w a w' h
    simp only [staging, runs_bind, runs_pure] at h
    obtain ⟨_, _, -, ha, -⟩ := h
    exact ⟨_, ha⟩

/-- A cell that holds a part of what is observed, and nothing else of it. -/
structure Cell.Holds {α β : Type} (cell : Cell (StateM σ) β) (observe : σ → α) (part : α → β)
    (replace : β → α → α) : Prop where
  get : ∀ a v b, Runs cell.get a v b → v = part (observe a) ∧ observe b = observe a
  set : ∀ v a u b, Runs (cell.set v) a u b → observe b = replace v (observe a)

theorem Cell.Holds.modify {α β : Type} {cell : Cell (StateM σ) β} {observe : σ → α} {part : α → β}
    {replace : β → α → α} (h : cell.Holds observe part replace) {f : β → β} {a b : σ} {u : Unit}
    (hrun : Runs (cell.modify f) a u b) :
    observe b = replace (f (part (observe a))) (observe a) := by
  rw [Cell.modify, runs_bind] at hrun
  obtain ⟨v, a₁, hget, hset⟩ := hrun
  obtain ⟨rfl, hsame⟩ := h.get _ _ _ hget
  rw [h.set _ _ _ _ hset, hsame]

section Cells

variable {α β : Type} {cell : Cell (StateM σ) (Agenda β)} {supply : Surroundings (StateM σ)}
  {observe : σ → α} {part : α → Agenda β} {replace : Agenda β → α → α} {now : Span} {a b c : σ}

theorem Cell.Holds.schedule [DecidableEq β] (hcell : cell.Holds observe part replace)
    (hnow : Runs supply.elapsed a now c) (hquiet : observe c = observe a) {item : β} {delay : Span}
    {u : Unit} (h : Runs (cell.schedule supply item delay) a u b) :
    observe b = replace ((part (observe a)).schedule item (now + delay)) (observe a) := by
  rw [Cell.schedule, runs_bind] at h
  obtain ⟨_, a₁, helapsed, hmodify⟩ := h
  obtain ⟨rfl, rfl⟩ := helapsed.unique hnow
  rw [hcell.modify hmodify, hquiet]

theorem Cell.Holds.takeDue (hcell : cell.Holds observe part replace)
    (hnow : Runs supply.elapsed a now c) (hquiet : observe c = observe a) {items : List β}
    (h : Runs (cell.takeDue supply) a items b) :
    items = ((part (observe a)).takeDue now).1 ∧
      observe b = replace ((part (observe a)).takeDue now).2 (observe a) := by
  simp only [Cell.takeDue, runs_bind, runs_pure] at h
  obtain ⟨_, a₁, helapsed, v, a₂, hget, _, a₃, hset, rfl, rfl⟩ := h
  obtain ⟨rfl, rfl⟩ := helapsed.unique hnow
  obtain ⟨rfl, hsame⟩ := hcell.get _ _ _ hget
  rw [hcell.set _ _ _ _ hset, hsame, hquiet]
  exact ⟨rfl, rfl⟩

end Cells

namespace StagingArea

section Cells

variable {M α : Type} {cell : Cell (StateM σ) (StagingArea M)} {supply : Surroundings (StateM σ)}
  {start : Moment} {observe : σ → α} {part : α → StagingArea M} {replace : StagingArea M → α → α}
  {channel key : String} {a b : σ}

theorem of_size (hcell : cell.Holds observe part replace) {n : Nat}
    (h : Runs ((staging cell supply start).size channel key) a (.ok n) b) :
    n = (part (observe a)).size ⟨channel, key⟩ ∧ observe b = observe a := by
  simp only [staging, runs_bind_pure] at h
  obtain ⟨area, hget, hsize⟩ := h
  obtain ⟨rfl, hsame⟩ := hcell.get _ _ _ hget
  exact ⟨Except.ok.inj hsize, hsame⟩

theorem of_age (hcell : cell.Holds observe part replace) {span : Span} {c : σ}
    (hspan : Runs supply.elapsed a span c) (hquiet : observe c = observe a) {age : Option Span}
    (h : Runs ((staging cell supply start).age channel key) a (.ok age) b) :
    age = (part (observe a)).age ⟨channel, key⟩ (start.after span) ∧ observe b = observe a := by
  simp only [staging, runs_bind, runs_pure] at h
  obtain ⟨_, a₁, helapsed, area, a₂, hget, hage, rfl⟩ := h
  obtain ⟨rfl, rfl⟩ := helapsed.unique hspan
  obtain ⟨rfl, hsame⟩ := hcell.get _ _ _ hget
  rw [hquiet] at hage hsame
  exact ⟨Except.ok.inj hage, hsame⟩

theorem of_add (hcell : cell.Holds observe part replace) {span : Span} {id : Uuid} {c d : σ}
    (hspan : Runs supply.elapsed a span c) (hid : Runs supply.freshId c id d)
    (hquiet : observe d = observe a) {message : M}
    (h : Runs ((staging cell supply start).add channel key message) a (.ok ()) b) :
    observe b = replace ((part (observe a)).add ⟨channel, key⟩
      ⟨id, start.after span, message⟩) (observe a) := by
  simp only [staging, runs_bind, runs_pure] at h
  obtain ⟨_, a₁, helapsed, _, a₂, hfresh, _, a₃, hmodify, -, rfl⟩ := h
  obtain ⟨rfl, rfl⟩ := helapsed.unique hspan
  obtain ⟨rfl, rfl⟩ := hfresh.unique hid
  rw [hcell.modify hmodify, hquiet]

theorem of_pull (hcell : cell.Holds observe part replace) {max : Option Nat}
    {pulled : List (Staged M)}
    (h : Runs ((staging cell supply start).pull channel key max) a (.ok pulled) b) :
    pulled = ((part (observe a)).pull ⟨channel, key⟩ max).1 ∧
      observe b = replace ((part (observe a)).pull ⟨channel, key⟩ max).2 (observe a) := by
  simp only [staging, runs_bind, runs_pure] at h
  obtain ⟨area, a₁, hget, _, a₂, hset, hpulled, rfl⟩ := h
  obtain ⟨rfl, hsame⟩ := hcell.get _ _ _ hget
  refine ⟨Except.ok.inj hpulled, ?_⟩
  rw [hcell.set _ _ _ _ hset, hsame]

theorem of_requeue (hcell : cell.Holds observe part replace) {messages : List (Staged M)}
    (h : Runs ((staging cell supply start).requeue channel key messages) a (.ok ()) b) :
    observe b = replace ((part (observe a)).requeue ⟨channel, key⟩ messages) (observe a) := by
  simp only [staging, runs_bind, runs_pure] at h
  obtain ⟨_, a₁, hmodify, -, rfl⟩ := h
  exact hcell.modify hmodify

end Cells

end StagingArea

namespace WeakResolver

variable {r : WeakResolver (StateM σ)} {routes : Routes Id S} {current : List Event}
  {commitId : Uuid} {headers : Headers} {e e' d : Entity S} {w w' : σ}
  {pulled : List (Staged ConflictBatch)} {waiting : Nat}

/-- How pulled batches were not merged without the current one. -/
inductive Unmerged (r : WeakResolver (StateM σ)) (routes : Routes Id S)
    (pulled : List (Staged ConflictBatch)) (stream : StreamRef) : σ → σ → Prop where
  | untried (w : σ) : Unmerged r routes pulled stream w w
  | unloaded {err : LoadError} {w w' : σ}
      (hload : Runs (loadEntity r.store routes.lift stream).run w (.error err) w') :
      Unmerged r routes pulled stream w w'
  | failed {fresh d : Entity S} {id : Uuid} {err : ResolveError} {w w₁ w₂ w' : σ}
      (hload : Runs (loadEntity r.store routes.lift stream).run w (.ok fresh) w₁)
      (hid : Runs r.surroundings.freshId w₁ id w₂)
      (hmerge : Resolves (settleBatch r.store r.surroundings routes.lift (stagedEvents pulled) id ∅
        .resolveWeakly r.freezeThreshold) fresh w₂ (.error err) d w') :
      Unmerged r routes pulled stream w w'

/-- How a merge of pulled batches and a current one goes, so many batches having been staged. -/
inductive StagedCourse (r : WeakResolver (StateM σ)) (routes : Routes Id S) (current : List Event)
    (commitId : Uuid) (headers : Headers) (waiting : Nat) (pulled : List (Staged ConflictBatch))
    (key : String) (e : Entity S) (w : σ) :
    Except ResolveError Resolution → Entity S → σ → Prop where
  | empty (hevents : stagedEvents pulled ++ current = []) :
      StagedCourse r routes current commitId headers waiting pulled key e w (.ok .discarded) e w
  | together {resolution : Resolution} {d : Entity S} {w₁ w' : σ}
      (hevents : stagedEvents pulled ++ current ≠ [])
      (hmerge : Resolves (settleBatch r.store r.surroundings routes.lift
        (stagedEvents pulled ++ current) commitId headers .resolveWeakly r.freezeThreshold) e w
        (.ok resolution) d w₁)
      (hrest : waiting ≤ pulled.length ∧ w' = w₁ ∨
        Runs (r.schedule d.timeline.stream .zero) w₁ () w') :
      StagedCourse r routes current commitId headers waiting pulled key e w (.ok resolution) d w'
  | alone {resolution : Resolution} {err : ResolveError} {id : Uuid} {d fresh d' : Entity S}
      {w₁ w₂ w₃ w₄ w' : σ}
      (hmerge : Resolves (settleBatch r.store r.surroundings routes.lift
        (stagedEvents pulled ++ current) commitId headers .resolveWeakly r.freezeThreshold) e w
        (.error err) d w₁)
      (hfinal : err.isTransient = false) (hcurrent : current ≠ [])
      (hload : Runs (loadEntity r.store routes.lift d.timeline.stream).run w₁ (.ok fresh) w₂)
      (hid : Runs r.surroundings.freshId w₂ id w₃)
      (hagain : Resolves (settleBatch r.store r.surroundings routes.lift (stagedEvents pulled) id ∅
        .resolveWeakly r.freezeThreshold) fresh w₃ (.ok resolution) d' w₄)
      (hrest : waiting ≤ pulled.length ∧ w' = w₄ ∨
        Runs (r.schedule d'.timeline.stream .zero) w₄ () w') :
      StagedCourse r routes current commitId headers waiting pulled key e w (.error err) d' w'
  | refused {err : ResolveError} {d : Entity S} {w' : σ} (hpulled : pulled = [])
      (hcurrent : current ≠ [])
      (hmerge : Resolves (settleBatch r.store r.surroundings routes.lift
        (stagedEvents pulled ++ current) commitId headers .resolveWeakly r.freezeThreshold) e w
        (.error err) d w') :
      StagedCourse r routes current commitId headers waiting pulled key e w (.error err) d w'
  | returned {err : ResolveError} {d : Entity S} {w₁ w₂ w₃ w' : σ} (hpulled : pulled ≠ [])
      (hmerge : Resolves (settleBatch r.store r.surroundings routes.lift
        (stagedEvents pulled ++ current) commitId headers .resolveWeakly r.freezeThreshold) e w
        (.error err) d w₁)
      (halone : r.Unmerged routes pulled d.timeline.stream w₁ w₂)
      (htried : w₂ = w₁ ∨ err.isTransient = false ∧ current ≠ [])
      (hrequeue : Runs (r.staging.requeue weakChannel key pulled) w₂ (.ok ()) w₃)
      (hschedule : Runs (r.schedule d.timeline.stream r.ageThreshold) w₃ () w') :
      StagedCourse r routes current commitId headers waiting pulled key e w (.error err) d w'

theorem resolves_mergeStagedAlone {result : Except ResolveError Bool}
    (h : Resolves (r.mergeStagedAlone routes.lift pulled) d w result e' w') :
    (result = .ok true ∧ ∃ fresh id resolution w₁ w₂,
      Runs (loadEntity r.store routes.lift d.timeline.stream).run w (.ok fresh) w₁ ∧
      Runs r.surroundings.freshId w₁ id w₂ ∧
      Resolves (settleBatch r.store r.surroundings routes.lift (stagedEvents pulled) id ∅
        .resolveWeakly r.freezeThreshold) fresh w₂ (.ok resolution) e' w') ∨
    (result = .ok false ∧ e' = d ∧ r.Unmerged routes pulled d.timeline.stream w w') := by
  unfold mergeStagedAlone at h
  rw [resolves_entity_bind, resolves_ask_bind] at h
  obtain ⟨found, w₁, hload, h⟩ := h
  cases found with
  | error err =>
    obtain ⟨rfl, rfl, rfl⟩ := resolves_pure.1 h
    exact .inr ⟨rfl, rfl, .unloaded hload⟩
  | ok fresh =>
    simp only [resolves_ask_bind] at h
    obtain ⟨id, w₂, hid, ⟨ended, d'⟩, w₃, hmerge, h⟩ := h
    cases ended with
    | ok resolution =>
      simp only [resolves_setEntity_bind, resolves_pure] at h
      obtain ⟨rfl, rfl, rfl⟩ := h
      exact .inl ⟨rfl, fresh, id, resolution, w₁, w₂, hload, hid, hmerge⟩
    | error err =>
      obtain ⟨rfl, rfl, rfl⟩ := resolves_pure.1 h
      exact .inr ⟨rfl, rfl, .failed hload hid hmerge⟩

/-- After pulled batches were merged, the stream is put on the agenda if others are waiting. -/
theorem resolves_settled {key : String} {result ended : Except ResolveError Resolution}
    (h : Resolves (do
      let stream := (← Resolving.entity).timeline.stream
      if true then
        if pulled.length < waiting then Resolving.ask (r.schedule stream .zero)
      else if !pulled.isEmpty then
        Resolving.staging (r.staging.requeue weakChannel key pulled)
        Resolving.ask (r.schedule stream r.ageThreshold)
      liftM result) d w ended e' w') :
    ended = result ∧ e' = d ∧ (waiting ≤ pulled.length ∧ w' = w ∨
      pulled.length < waiting ∧ Runs (r.schedule d.timeline.stream .zero) w () w') := by
  rw [resolves_entity_bind] at h
  by_cases hmore : pulled.length < waiting
  · simp only [if_true, if_pos hmore, resolves_ask_bind, resolves_lift] at h
    obtain ⟨_, _, hschedule, rfl, rfl, rfl⟩ := h
    exact ⟨rfl, rfl, .inr ⟨hmore, hschedule⟩⟩
  · simp only [if_true, if_neg hmore, resolves_lift] at h
    obtain ⟨rfl, rfl, rfl⟩ := h
    exact ⟨rfl, rfl, .inl ⟨Nat.le_of_not_lt hmore, rfl⟩⟩

theorem resolves_unsettled {key : String} {result ended : Except ResolveError Resolution}
    (hgranting : r.staging.Granting)
    (h : Resolves (do
      let stream := (← Resolving.entity).timeline.stream
      if false then
        if pulled.length < waiting then Resolving.ask (r.schedule stream .zero)
      else if !pulled.isEmpty then
        Resolving.staging (r.staging.requeue weakChannel key pulled)
        Resolving.ask (r.schedule stream r.ageThreshold)
      liftM result) d w ended e' w') :
    ended = result ∧ e' = d ∧ (pulled = [] ∧ w' = w ∨
      pulled ≠ [] ∧ ∃ w₁, Runs (r.staging.requeue weakChannel key pulled) w (.ok ()) w₁ ∧
        Runs (r.schedule d.timeline.stream r.ageThreshold) w₁ () w') := by
  rw [resolves_entity_bind] at h
  cases pulled with
  | nil =>
    simp only [Bool.false_eq_true, if_false, List.isEmpty_nil, Bool.not_true, resolves_lift] at h
    obtain ⟨rfl, rfl, rfl⟩ := h
    exact ⟨rfl, rfl, .inl ⟨rfl, rfl⟩⟩
  | cons first others =>
    simp only [Bool.false_eq_true, if_false, List.isEmpty_cons, Bool.not_false, if_true] at h
    rw [resolves_staging_bind (hgranting.requeue _ _ _ _)] at h
    obtain ⟨_, w₁, hrequeue, h⟩ := h
    simp only [resolves_ask_bind, resolves_lift] at h
    obtain ⟨_, w₂, hschedule, rfl, rfl, rfl⟩ := h
    exact ⟨rfl, rfl, .inr ⟨by simp, w₁, hrequeue, hschedule⟩⟩

/-- What is staged is counted and pulled, and then takes one of the courses. -/
theorem course_of_resolveStaged {result : Except ResolveError Resolution}
    (hgranting : r.staging.Granting)
    (h : Resolves (r.resolveStaged routes.lift current commitId headers) e w result e' w') :
    ∃ waiting pulled w₁ w₂,
      Runs (r.staging.size weakChannel (e.timeline.key .domain)) w (.ok waiting) w₁ ∧
      Runs (r.staging.pull weakChannel (e.timeline.key .domain) r.pullMax) w₁ (.ok pulled) w₂ ∧
      r.StagedCourse routes current commitId headers waiting pulled (e.timeline.key .domain) e w₂
        result e' w' := by
  unfold resolveStaged at h
  rw [resolves_entity_bind, resolves_staging_bind (hgranting.size _ _ _)] at h
  obtain ⟨waiting, w₁, hsize, h₁⟩ := h
  rw [resolves_staging_bind (hgranting.pull _ _ _ _)] at h₁
  obtain ⟨pulled, w₂, hpull, h₂⟩ := h₁
  refine ⟨waiting, pulled, w₁, w₂, hsize, hpull, ?_⟩
  dsimp only at h₂
  by_cases hempty : (stagedEvents pulled ++ current).isEmpty = true
  · rw [if_pos hempty] at h₂
    obtain ⟨rfl, rfl, rfl⟩ := resolves_pure.1 h₂
    exact .empty (List.isEmpty_iff.1 hempty)
  rw [if_neg hempty, resolves_outcome_bind] at h₂
  rw [List.isEmpty_iff] at hempty
  obtain ⟨ended, d, w₃, hmerge, h₃⟩ := h₂
  cases ended with
  | ok resolution =>
    rw [pure_bind] at h₃
    obtain ⟨rfl, rfl, hrest⟩ := resolves_settled h₃
    exact .together hempty hmerge (hrest.imp_right And.right)
  | error err =>
    dsimp only at h₃
    -- Only a current batch that fails for good is to blame; the pulled ones are then tried without
    -- it.
    by_cases halone : (!err.isTransient && !current.isEmpty && !pulled.isEmpty) = true
    · rw [if_pos halone, resolves_bind] at h₃
      simp only [Bool.and_eq_true, Bool.not_eq_true', List.isEmpty_eq_false_iff] at halone
      obtain ⟨⟨hfinal, hcurrent⟩, hpulled⟩ := halone
      rcases h₃ with ⟨failure, hagain, -⟩ | ⟨settled, d₁, w₄, hagain, h₄⟩
      · rcases resolves_mergeStagedAlone hagain with ⟨hr, -⟩ | ⟨hr, -⟩ <;> cases hr
      · rcases resolves_mergeStagedAlone hagain with
          ⟨hr, fresh, id, resolution, w₅, w₆, hload, hid, hsettle⟩ | ⟨hr, rfl, hunmerged⟩
        · cases hr
          obtain ⟨rfl, rfl, hrest⟩ := resolves_settled h₄
          exact .alone hmerge hfinal hcurrent hload hid hsettle (hrest.imp_right And.right)
        · cases hr
          obtain ⟨rfl, rfl, hback⟩ := resolves_unsettled hgranting h₄
          rcases hback with ⟨hnil, -⟩ | ⟨-, w₅, hrequeue, hschedule⟩
          · exact absurd hnil hpulled
          · exact .returned hpulled hmerge hunmerged (.inr ⟨hfinal, hcurrent⟩) hrequeue hschedule
    · rw [if_neg halone, pure_bind] at h₃
      obtain ⟨rfl, rfl, hback⟩ := resolves_unsettled hgranting h₃
      rcases hback with ⟨hnil, rfl⟩ | ⟨hpulled, w₅, hrequeue, hschedule⟩
      · refine .refused hnil (fun hcurrent => hempty ?_) hmerge
        rw [hnil, hcurrent]
        rfl
      · exact .returned hpulled hmerge (.untried _) (.inl rfl) hrequeue hschedule

/-- A batch is merged with what is staged if the front message has waited long enough. Otherwise it
is staged behind it, and the stream is due once the front message will have waited so long. -/
theorem gate_of_resolve {batch : List Event} {result : Except ResolveError Resolution}
    (hgranting : r.staging.Granting)
    (h : Resolves (r.resolve routes.lift batch commitId headers) e w result e' w') :
    ∃ age w₁, Runs (r.staging.age weakChannel (e.timeline.key .domain)) w (.ok age) w₁ ∧
      ((∃ waited ∈ age, r.ageThreshold ≤ waited) ∧
          Resolves (r.resolveStaged routes.lift batch commitId headers) e w₁ result e' w' ∨
        (∀ waited ∈ age, ¬ r.ageThreshold ≤ waited) ∧
          ∃ w₂, Runs (r.staging.add weakChannel (e.timeline.key .domain)
              ⟨routes.entity, e.parents, batch⟩) w₁ (.ok ()) w₂ ∧
            Runs (r.schedule e.timeline.stream (r.ageThreshold - age.getD .zero)) w₂ () w' ∧
            result = .ok .deferred ∧ e' = e) := by
  unfold resolve at h
  rw [resolves_entity_bind, resolves_staging_bind (hgranting.age _ _ _)] at h
  obtain ⟨age, w₁, hage, h₁⟩ := h
  refine ⟨age, w₁, hage, ?_⟩
  by_cases hdue : (age.any fun age => r.ageThreshold ≤ age) = true
  · rw [if_pos hdue] at h₁
    exact .inl ⟨by simpa [Option.any_eq_true] using hdue, h₁⟩
  · rw [if_neg hdue, resolves_staging_bind (hgranting.add _ _ _ _)] at h₁
    obtain ⟨_, w₂, hadd, h₂⟩ := h₁
    simp only [resolves_ask_bind, resolves_pure] at h₂
    obtain ⟨_, w₃, hschedule, rfl, rfl, rfl⟩ := h₂
    exact .inr ⟨by simpa [Option.any_eq_true] using hdue, w₂, hadd, hschedule, rfl, rfl⟩

/-- A batch is merged with what is staged, if anything is, or staged behind it. -/
theorem course_of_resolve {batch : List Event} {result : Except ResolveError Resolution}
    (hgranting : r.staging.Granting)
    (h : Resolves (r.resolve routes.lift batch commitId headers) e w result e' w') :
    ∃ age w₁, Runs (r.staging.age weakChannel (e.timeline.key .domain)) w (.ok age) w₁ ∧
      ((∃ waited ∈ age, r.ageThreshold ≤ waited) ∧
          Resolves (r.resolveStaged routes.lift batch commitId headers) e w₁ result e' w' ∨
        ∃ delay w₂, Runs (r.staging.add weakChannel (e.timeline.key .domain)
            ⟨routes.entity, e.parents, batch⟩) w₁ (.ok ()) w₂ ∧
          Runs (r.schedule e.timeline.stream delay) w₂ () w' ∧ delay ≤ r.ageThreshold ∧
          result = .ok .deferred ∧ e' = e) := by
  obtain ⟨age, w₁, hage, hdue | ⟨-, w₂, hadd, hschedule, hend⟩⟩ := gate_of_resolve hgranting h
  · exact ⟨age, w₁, hage, .inl hdue⟩
  · exact ⟨age, w₁, hage, .inr ⟨_, w₂, hadd, hschedule, Span.sub_le .., hend⟩⟩

end WeakResolver

end Chronicle
