import Mathlib.Algebra.Group.Nat.Defs
import Mathlib.Data.List.Nodup
import Chronicle.Proofs.Histories

/-!
# Staged batches describe themselves

A staged batch travels as JSON, and another node has to find its stream again. The written form of
a batch is read back as it was: its records name all their fields, so that no default comes into
play, and its payloads, headers and identifiers are read as they were written. Of moments this is
assumed.

The message splits the identity of the stream. The kind and the parents stand in the message itself,
bucket and identifier in the first event. Whatever was recorded on a timeline names the stream of
the timeline, so the parts fit together again.
-/

namespace Chronicle

namespace Json

variable {α β : Type} {key : String} {v : Json} {fs : List (String × Json)}

theorem lookup_cons (key other : String) (v : Json) (fs : List (String × Json)) :
    ((key, v) :: fs).lookup other = if other = key then some v else fs.lookup other := by
  rw [List.lookup_cons]
  by_cases h : other = key
  · simp [h]
  · rw [beq_false_of_ne h, if_neg h]

theorem mem_of_lookup {l : List (String × α)} {a : α} (h : l.lookup key = some a) :
    (key, a) ∈ l := by
  obtain ⟨l₁, l₂, rfl, -⟩ := List.lookup_eq_some_iff.1 h
  simp

theorem lookup_insertField (key other : String) (v : Json) (fs : List (String × Json)) :
    (insertField key v fs).lookup other = if other = key then some v else fs.lookup other := by
  induction fs with
  | nil => rw [insertField, lookup_cons]
  | cons f fs ih =>
    obtain ⟨k, u⟩ := f
    rw [insertField]
    split
    · rw [lookup_cons]
    split
    · rename_i hkey
      rw [lookup_cons, lookup_cons, ← hkey]
      split <;> rfl
    · rename_i hkey
      rw [lookup_cons, lookup_cons, ih]
      by_cases h : other = k
      · rw [if_pos h, if_pos h, if_neg fun h' => hkey (h'.symm.trans h)]
      · rw [if_neg h, if_neg h]

theorem mem_insertField {f : String × Json} (h : f ∈ insertField key v fs) :
    f = (key, v) ∨ f ∈ fs := by
  induction fs with
  | nil => exact .inl (List.mem_singleton.1 h)
  | cons g fs ih =>
    obtain ⟨k, u⟩ := g
    rw [insertField] at h
    split at h
    · exact List.mem_cons.1 h
    split at h
    · rcases List.mem_cons.1 h with h | h
      · exact .inl h
      · exact .inr (List.mem_cons_of_mem _ h)
    · rcases List.mem_cons.1 h with h | h
      · exact .inr (h ▸ List.mem_cons_self)
      · exact (ih h).imp_right (List.mem_cons_of_mem _)

theorem exists_ofFields {l : List (String × Json)} (hl : (l.map Prod.fst).Nodup) :
    ∃ fs, ofFields l = .object fs ∧ fs ⊆ l ∧ ∀ key v, (key, v) ∈ l → fs.lookup key = some v := by
  suffices h : ∀ (l fs : List (String × Json)), (l.map Prod.fst).Nodup →
      let fs' := l.foldl (fun acc f => insertField f.1 f.2 acc) fs
      fs' ⊆ l ++ fs ∧ (∀ key, key ∉ l.map Prod.fst → fs'.lookup key = fs.lookup key) ∧
        ∀ key v, (key, v) ∈ l → fs'.lookup key = some v by
    obtain ⟨hsub, -, hfind⟩ := h l [] hl
    exact ⟨_, rfl, by simpa using hsub, hfind⟩
  clear hl l
  intro l
  induction l with
  | nil => simp
  | cons f l ih =>
    intro fs hl
    obtain ⟨hf, hl⟩ := List.nodup_cons.1 hl
    obtain ⟨hsub, hkeep, hfind⟩ := ih (insertField f.1 f.2 fs) hl
    refine ⟨fun g hg => ?_, fun key hkey => ?_, fun key v hv => ?_⟩
    · rcases List.mem_append.1 (hsub hg) with hg | hg
      · simp [hg]
      · rcases mem_insertField hg with hg | hg <;> simp [hg]
    · simp only [List.map_cons, List.mem_cons, not_or] at hkey
      exact (hkeep key hkey.2).trans (by rw [lookup_insertField, if_neg hkey.1])
    · rcases List.mem_cons.1 hv with rfl | hv
      · exact (hkeep key hf).trans (by rw [lookup_insertField, if_pos rfl])
      · exact hfind key v hv

namespace Fields

variable {f : Fields (α → β)} {x : Fields α} {a : α} {g : α → β} {name : String} {d : Decoder α}

/-- The fields of a record are there, pass their checks, and are read as a value. -/
structure Reads (x : Fields α) (l : List (String × Json)) (a : α) : Prop where
  checked : ∀ c ∈ x.checks, ∀ v, (c.1, v) ∈ l → c.2 v = .ok ()
  read : ∀ get : String → Option Json, (∀ key v, (key, v) ∈ l → get key = some v) →
    x.fromObject get = .ok a

theorem Reads.field {l : List (String × Json)} {absent : Absent α} (hl : (l.map Prod.fst).Nodup)
    (hv : (name, v) ∈ l) (hd : d v = .ok a) : (Fields.field name d absent).Reads l a where
  checked := by
    intro c hc u hu
    obtain rfl := List.mem_singleton.1 hc
    obtain ⟨-, rfl⟩ := Prod.mk.inj (List.inj_on_of_nodup_map hl hu hv rfl)
    simp [hd, Except.map]
  read := by
    intro get hget
    simp only [Fields.field, hget name v hv, hd]

theorem Reads.text {l : List (String × Json)} {absent : Absent String} {s : String}
    (hl : (l.map Prod.fst).Nodup) (hs : (name, .string s) ∈ l) :
    (Fields.field name .string absent).Reads l s :=
  .field hl hs rfl

theorem Reads.seq {l : List (String × Json)} (hf : f.Reads l g) (hx : x.Reads l a) :
    (f <*> x).Reads l (g a) where
  checked := by
    intro c hc
    rcases List.mem_append.1 hc with hc | hc
    · exact hf.checked c hc
    · exact hx.checked c hc
  read := by
    intro get hget
    change (do
      let g ← f.fromObject get
      let a ← x.fromObject get
      Except.ok (g a)) = _
    rw [hf.read get hget, hx.read get hget]
    rfl

theorem Reads.map {l : List (String × Json)} (hx : x.Reads l a) : (g <$> x).Reads l (g a) :=
  Reads.seq (f := Fields.none g) ⟨by simp [Fields.none], fun _ _ => rfl⟩ hx

theorem check_eq_ok {checks : List (String × (Json → Except DecodeError Unit))}
    (h : ∀ c ∈ checks, ∀ v, (c.1, v) ∈ fs → c.2 v = .ok ()) : check checks fs = .ok () := by
  induction fs with
  | nil => rfl
  | cons f fs ih =>
    obtain ⟨k, v⟩ := f
    have hrest := ih fun c hc v hv => h c hc v (List.mem_cons_of_mem _ hv)
    rw [check]
    cases hlook : checks.lookup k with
    | none => exact hrest
    | some c =>
      have hc := h (k, c) (mem_of_lookup hlook) v (by simp)
      simp only at hc
      simp only [hc]
      exact hrest

/-- A record that was written with all its fields is read as what they say. -/
theorem Reads.record {l : List (String × Json)} (hx : x.Reads l a)
    (hl : (l.map Prod.fst).Nodup) (type : String) : record type x (ofFields l) = .ok a := by
  obtain ⟨fs, hfs, hsub, hfind⟩ := exists_ofFields hl
  have hcheck : check x.checks fs = .ok () :=
    check_eq_ok fun c hc v hv => hx.checked c hc v (hsub hv)
  rw [hfs, Fields.record, hcheck]
  exact hx.read _ hfind

end Fields

theorem Decoder.list_map {encode : α → Json} {d : Decoder α} {as : List α}
    (h : ∀ a ∈ as, d (encode a) = .ok a) : Decoder.list d (.array (as.map encode)) = .ok as := by
  change Decoder.items d (as.map encode) = _
  induction as with
  | nil => rfl
  | cons a as ih =>
    rw [List.map_cons, Decoder.items, h a (by simp), ih fun b hb => h b (by simp [hb])]
    rfl

end Json

namespace Uuid

theorem digitValue?_hexDigit : ∀ d < 16, digitValue? (Json.hexDigit d) = some d := by decide

theorem hexDigit_plain :
    ∀ d < 16, Json.hexDigit d ≠ '-' ∧ (Json.hexDigit d).utf8Size = 1 := by decide

theorem length_hexDigits (width n : Nat) : (hexDigits width n).length = width := by
  induction width generalizing n with
  | zero => rfl
  | succ width ih => simp [hexDigits, ih]

theorem plain_of_mem_hexDigits {width n : Nat} {c : Char} (h : c ∈ hexDigits width n) :
    c ≠ '-' ∧ c.utf8Size = 1 := by
  induction width generalizing n with
  | zero => simp [hexDigits] at h
  | succ width ih =>
    rcases List.mem_append.1 h with h | h
    · exact ih h
    · obtain rfl := List.mem_singleton.1 h
      exact hexDigit_plain _ (Nat.mod_lt _ (by decide))

theorem readHex_hexDigits (width n : Nat) :
    readHex (hexDigits width n) = some (n % 16 ^ width) := by
  induction width generalizing n with
  | zero => simp [hexDigits, readHex, Nat.mod_one]
  | succ width ih =>
    have hdigit := digitValue?_hexDigit (n % 16) (Nat.mod_lt _ (by decide))
    have hn := ih (n / 16)
    unfold readHex at hn ⊢
    rw [hexDigits, List.foldl_append, hn]
    simp only [List.foldl_cons, List.foldl_nil, hdigit, Option.bind_eq_bind, Option.bind_some]
    rw [Nat.pow_succ, Nat.mul_comm (16 ^ width) 16, Nat.mod_mul]
    congr 1
    omega

theorem filter_hyphenate {cs : List Char} (h : ∀ c ∈ cs, c ≠ '-') :
    (hyphenate cs).filter (· != '-') = cs := by
  have hkeep : ∀ l ⊆ cs, l.filter (· != '-') = l := fun l hl =>
    List.filter_eq_self.2 fun c hc => by simpa using h c (hl hc)
  have hgroup : ∀ n m, ((cs.drop n).take m).filter (· != '-') = (cs.drop n).take m := fun n m =>
    hkeep _ fun _ hc => List.drop_subset _ _ (List.take_subset _ _ hc)
  have hjoin : ∀ n m, (cs.drop n).take m ++ cs.drop (n + m) = cs.drop n := by
    intro n m
    rw [← List.drop_drop, List.take_append_drop]
  simp only [hyphenate, List.filter_append, List.filter_cons, bne_self_eq_false, Bool.false_eq_true,
    if_false, hgroup, hkeep _ (List.take_subset ..), hkeep _ (List.drop_subset ..),
    List.append_assoc, hjoin, List.take_append_drop]

theorem length_hyphenate {cs : List Char} (h : cs.length = 32) : (hyphenate cs).length = 36 := by
  simp [hyphenate, h]

theorem utf8ByteSize_text (u : Uuid) : u.text.utf8ByteSize = 36 := by
  have hone : ∀ c ∈ hyphenate (hexDigits 32 u.value.toNat), c.utf8Size = 1 := by
    intro c hc
    by_cases hdash : c = '-'
    · rw [hdash]
      rfl
    · have hplain : c ∈ (hyphenate (hexDigits 32 u.value.toNat)).filter (· != '-') :=
        List.mem_filter.2 ⟨hc, by simpa using hdash⟩
      rw [filter_hyphenate fun c hc => (plain_of_mem_hexDigits hc).1] at hplain
      exact (plain_of_mem_hexDigits hplain).2
  have hsize : ∀ cs : List Char, (∀ c ∈ cs, c.utf8Size = 1) →
      (String.ofList cs).utf8ByteSize = cs.length := by
    intro cs h
    induction cs with
    | nil => rfl
    | cons c cs ih =>
      rw [← List.singleton_append, String.ofList_append, String.utf8ByteSize_append]
      simp_all [Nat.add_comm]
  rw [text, hsize _ hone, length_hyphenate (length_hexDigits ..)]

theorem decode_toJson (u : Uuid) : decode u.toJson = .ok u := by
  have hdigits : (hexDigits 32 u.value.toNat).length = 32 := length_hexDigits ..
  have hread : readDigits (hexDigits 32 u.value.toNat) = some u := by
    have hbound : u.value.toNat < 16 ^ 32 := Nat.lt_of_lt_of_eq u.value.isLt (by decide)
    rw [readDigits, if_pos hdigits, readHex_hexDigits, Nat.mod_eq_of_lt hbound]
    simp
  have hgroups : readGroups (hyphenate (hexDigits 32 u.value.toNat)) = some u := by
    simp only [readGroups, filter_hyphenate fun c hc => (plain_of_mem_hexDigits hc).1, if_true,
      hread]
  have hparse : parse? u.text = some u := by
    simp only [parse?, hyphenated?, utf8ByteSize_text, if_true]
    simpa [text] using hgroups
  simp [toJson, decode, hparse]

end Uuid

theorem Headers.decode_entries (l : List (String × String)) :
    Json.Decoder.entries .string (l.map fun (k, v) => (k, .string v)) = .ok l := by
  induction l with
  | nil => rfl
  | cons f l ih =>
    simp only [List.map_cons, Json.Decoder.entries, Json.Decoder.string, ih]
    rfl

@[simp] theorem Lane.decode_toJson (lane : Lane) : decode lane.toJson = .ok lane := by
  cases lane <;> rfl

@[simp] theorem ParentRef.decode_toJson (p : ParentRef) : decode p.toJson = .ok p := by
  have hnames : (([("entity", .string p.entity), ("id", .string p.id)] :
      List (String × Json)).map Prod.fst).Nodup := by simp
  unfold decode toJson
  exact Json.Fields.Reads.record (a := ParentRef.mk p.entity p.id)
    (.seq (.map (.text hnames (by simp))) (.text hnames (by simp))) hnames _

@[simp] theorem Headers.decode_toJson (h : Headers) : decode h.toJson = .ok h := by
  have hsame : Std.ExtTreeMap.ofList h.toList = h := by
    refine Std.ExtTreeMap.ext_getElem? fun k => ?_
    cases hk : h[k]? with
    | some v =>
      exact Std.ExtTreeMap.getElem?_ofList_of_mem Std.ReflCmp.compare_self
        Std.ExtTreeMap.distinct_keys_toList (Std.ExtTreeMap.mem_toList_iff_getElem?_eq_some.2 hk)
    | none =>
      refine Std.ExtTreeMap.getElem?_ofList_of_contains_eq_false ?_
      rw [Std.ExtTreeMap.map_fst_toList_eq_keys, ← Bool.not_eq_true, List.contains_iff_mem,
        Std.ExtTreeMap.mem_keys, Std.ExtTreeMap.mem_iff_isSome_getElem?, hk]
      simp
  simp only [decode, toJson, Json.Decoder.map, decode_entries, Except.map, hsame]

theorem Descriptor.decode_toJson {d : Descriptor} (ht : d.time.Legible)
    (hlow : -0x8000000000000000 ≤ d.version) (hhigh : d.version ≤ 0x7fffffffffffffff) :
    decode d.toJson = .ok d := by
  have hnames : (([("entity", .string d.stream.entity), ("stream_type", d.lane.toJson),
      ("bucket", .string d.stream.bucket), ("stream_id", .string d.stream.id),
      ("parents", .array (d.stream.parents.map ParentRef.toJson)), ("version", .int d.version),
      ("timestamp", d.time.toJson), ("headers", d.headers.toJson),
      ("commit_headers", d.commitHeaders.toJson)] : List (String × Json)).map Prod.fst).Nodup := by
    simp
  have hparents : Json.Decoder.list ParentRef.decode (.array (d.stream.parents.map
      ParentRef.toJson)) = .ok d.stream.parents :=
    Json.Decoder.list_map fun p _ => p.decode_toJson
  unfold decode toJson
  exact Json.Fields.Reads.record (a := ofParts d.stream.entity d.lane d.stream.bucket d.stream.id
    d.stream.parents d.version d.time d.headers d.commitHeaders)
    (.seq (.seq (.seq (.seq (.seq (.seq (.seq (.seq (.map (.text hnames (by simp)))
      (.field hnames (by simp) d.lane.decode_toJson))
    (.text hnames (by simp))) (.text hnames (by simp))) (.field hnames (by simp) hparents))
    (.field hnames (by simp) (Json.Decoder.i64_eq_ok.2 ⟨rfl, hlow, hhigh⟩)))
    (.field hnames (by simp) ht)) (.field hnames (by simp) d.headers.decode_toJson))
    (.field hnames (by simp) d.commitHeaders.decode_toJson)) hnames _

namespace Event

/-- An event that can be written and read back: its time is, and its version is a number of 64
bits. -/
structure Legible (e : Event) : Prop where
  time : e.time.Legible
  version_ge : -0x8000000000000000 ≤ e.version
  version_le : e.version ≤ 0x7fffffffffffffff

theorem decode_id (id : Option Uuid) : Json.Decoder.option Uuid.decode (match id with
    | some u => u.toJson
    | none => .null) = .ok id := by
  cases id with
  | none => rfl
  | some u =>
    change (Uuid.decode u.toJson).map some = _
    rw [u.decode_toJson]
    rfl

theorem decode_toJson {e : Event} (h : e.Legible) : decode e.toJson = .ok e := by
  have hnames (id : Json) : (([("event_id", id), ("kind", .string e.kind), ("event", e.payload),
      ("descriptor", e.toDescriptor.toJson)] : List (String × Json)).map Prod.fst).Nodup := by
    simp
  have hdescriptor :=
    Descriptor.decode_toJson (d := e.toDescriptor) h.time h.version_ge h.version_le
  have hpayload : Json.Decoder.value e.payload = .ok e.payload := rfl
  unfold decode toJson
  exact Json.Fields.Reads.record (a := ofParts e.id e.kind e.payload e.toDescriptor)
    (.seq (.seq (.seq (.map (.field (hnames _) (.head _) (decode_id e.id)))
      (.text (hnames _) (by simp))) (.field (hnames _) (by simp) hpayload))
      (.field (hnames _) (by simp) hdescriptor)) (hnames _) _

end Event

theorem ConflictBatch.decode_toJson {b : ConflictBatch} (h : ∀ e ∈ b.events, e.Legible) :
    decode b.toJson = .ok b := by
  have hnames : (([("entity_type", .string b.entity),
      ("parents", .array (b.parents.map ParentRef.toJson)),
      ("events", .array (b.events.map Event.toJson))] :
        List (String × Json)).map Prod.fst).Nodup := by simp
  have hparents : Json.Decoder.list ParentRef.decode (.array (b.parents.map ParentRef.toJson)) =
      .ok b.parents :=
    Json.Decoder.list_map fun p _ => p.decode_toJson
  have hevents := Json.Decoder.list_map fun e he => Event.decode_toJson (h e he)
  unfold decode toJson
  exact Json.Fields.Reads.record (a := ConflictBatch.mk b.entity b.parents b.events)
    (.seq (.seq (.map (.text hnames (by simp))) (.field hnames (by simp) hparents))
      (.field hnames (by simp) hevents)) hnames _

namespace Timeline

/-- A domain event, or an event on a channel, with the headers that it is given. -/
inductive Recording where
  | domain (stamp : Stamp) (kind : String) (payload : Json) (headers : Headers)
  | oob (stamp : Stamp) (kind : String) (payload : Json) (channel : String) (headers : Headers)

namespace Recording

def stamp : Recording → Stamp
  | domain stamp .. | oob stamp .. => stamp

end Recording

def record (t : Timeline) : Recording → Timeline
  | .domain stamp kind payload headers => t.add stamp kind payload headers
  | .oob stamp kind payload channel headers => t.addOob stamp kind payload channel headers

/-- The timeline after one thing was recorded after the other. -/
def recordAll (t : Timeline) (rs : List Recording) : Timeline := rs.foldl record t

theorem nextVersion_le_record (t : Timeline) (r : Recording) :
    t.nextVersion ≤ (t.record r).nextVersion := by
  cases r with
  | domain => exact Int.le_add_one (Int.le_refl _)
  | oob => exact Int.le_refl _

theorem nextVersion_le_recordAll (t : Timeline) (rs : List Recording) :
    t.nextVersion ≤ (t.recordAll rs).nextVersion := by
  induction rs generalizing t with
  | nil => exact Int.le_refl _
  | cons r rs ih => exact Int.le_trans (t.nextVersion_le_record r) (ih _)

theorem of_mem_batch_record {t : Timeline} {r : Recording} {e : Event}
    (h : e ∈ (t.record r).batch) : e ∈ t.batch ∨ e.stream = t.stream ∧ e.time = r.stamp.time ∧
      (e.version = newStreamVersion ∨
        t.nextVersion < e.version ∧ e.version ≤ (t.record r).nextVersion) := by
  cases r with
  | domain stamp kind payload headers =>
    simp only [record, batch, pending_add, List.mem_append, List.mem_singleton] at h
    rcases h with (h | rfl) | h
    · exact .inl (List.mem_append_left _ h)
    · exact .inr ⟨rfl, rfl, .inr ⟨Int.lt_add_one_of_le (Int.le_refl _), Int.le_refl _⟩⟩
    · exact .inl (List.mem_append_right _ h)
  | oob stamp kind payload channel headers =>
    simp only [record, batch, addOob, List.mem_append, List.mem_singleton] at h
    rcases h with h | h | rfl
    · exact .inl (List.mem_append_left _ h)
    · exact .inl (List.mem_append_right _ h)
    · exact .inr ⟨rfl, rfl, .inl rfl⟩

@[simp] theorem stream_record (t : Timeline) (r : Recording) : (t.record r).stream = t.stream := by
  cases r <;> rfl

/-- What was recorded are events of the stream. Out-of-band events carry no version, and the
versions of the domain events lie between those of the timelines. -/
theorem of_mem_batch_recordAll {t : Timeline} {rs : List Recording} {e : Event}
    (h : e ∈ (t.recordAll rs).batch) : e ∈ t.batch ∨ e.stream = t.stream ∧
      (∃ r ∈ rs, e.time = r.stamp.time) ∧ (e.version = newStreamVersion ∨
        t.nextVersion < e.version ∧ e.version ≤ (t.recordAll rs).nextVersion) := by
  induction rs generalizing t with
  | nil => exact .inl h
  | cons r rs ih =>
    rcases ih h with h | ⟨hstream, ⟨s, hs, htime⟩, hversion⟩
    · refine (of_mem_batch_record h).imp_right fun ⟨hstream, htime, hversion⟩ =>
        ⟨hstream, ⟨r, by simp, htime⟩, hversion.imp_right fun ⟨hlow, hhigh⟩ => ⟨hlow, ?_⟩⟩
      exact Int.le_trans hhigh ((t.record r).nextVersion_le_recordAll rs)
    · refine .inr ⟨hstream.trans (t.stream_record r), ⟨s, by simp [hs], htime⟩,
        hversion.imp_right fun ⟨hlow, hhigh⟩ => ⟨?_, hhigh⟩⟩
      exact Int.lt_of_le_of_lt (t.nextVersion_le_record r) hlow

end Timeline

namespace World

variable {S : Type} {n : Node} {opened : Moment} {w w' : World} {routes : Routes Id S}
  {e e' : Entity S}

/-- A batch is staged behind the others if the first of them has not waited long enough. -/
theorem staged_of_resolve {batch : List Event} {commitId : Uuid} {headers : Headers}
    {r : Except ResolveError Resolution}
    (hyoung : ∀ waited ∈ (w.area n.area).age ⟨weakChannel, e.timeline.key .domain⟩
      (opened.after w.elapsed), ¬ n.ageThreshold ≤ waited)
    (h : Resolves ((n.weak (site opened)).resolve routes.lift batch commitId headers) e w r e' w') :
    r = .ok .deferred ∧ e' = e ∧ ∃ staged : Staged ConflictBatch,
      staged.message = ⟨routes.entity, e.parents, batch⟩ ∧
      w'.queue n.area (e.timeline.key .domain) =
        w.queue n.area (e.timeline.key .domain) ++ [staged] := by
  obtain ⟨age, w₁, hage, hcourse⟩ := WeakResolver.course_of_resolve (granting_weak n opened) h
  obtain ⟨hage, rfl⟩ := runs_age_iff.1 hage
  cases hage
  rcases hcourse with ⟨⟨waited, hwaited, hdue⟩, -⟩ | ⟨delay, w₂, hadd, hschedule, -, hr, he⟩
  · exact absurd hdue (hyoung waited hwaited)
  · obtain ⟨-, i, id, received, rfl⟩ := runs_add hadd
    refine ⟨hr, he, ⟨id, received, ⟨routes.entity, e.parents, batch⟩⟩, rfl, ?_⟩
    rw [queue_eq_of_areas (idle_schedule hschedule).areas, queue_restaged]

/-- What was recorded on a timeline of a stream is staged as a message that can be written and read
back, and that names the stream before and after, so the message stands in the group that it names.
The entity that stages it need not be the one that recorded it. -/
theorem self_describing (n : Node) (opened : Moment) (w : World) (ref : StreamRef)
    (routes : Routes Id S) (e : Entity S) (t : Timeline) (rs : List Timeline.Recording)
    (commitId : Uuid) (headers : Headers) (hentity : routes.entity = ref.entity)
    (he : e.timeline.stream = ref) (ht : t.stream = ref) (hclean : t.batch = [])
    (hbatch : (t.recordAll rs).batch ≠ []) (htimes : ∀ r ∈ rs, r.stamp.time.Legible)
    (hlow : -0x8000000000000000 ≤ t.nextVersion)
    (hhigh : (t.recordAll rs).nextVersion ≤ 0x7fffffffffffffff)
    (hyoung : ∀ waited ∈ (w.area n.area).age ⟨weakChannel, e.timeline.key .domain⟩
      (opened.after w.elapsed), ¬ n.ageThreshold ≤ waited) :
    let out := (((n.weak (site opened)).resolve routes.lift (t.recordAll rs).batch commitId
      headers).run.run e).run w
    out.1.1 = .ok .deferred ∧ ∃ staged : Staged ConflictBatch,
      out.2.queue n.area (e.timeline.key .domain) =
        w.queue n.area (e.timeline.key .domain) ++ [staged] ∧
      staged.message.events = (t.recordAll rs).batch ∧
      staged.message.stream? = some ref ∧
      (∃ read, ConflictBatch.decode staged.message.toJson = .ok read ∧ read = staged.message ∧
        read.stream? = some ref) ∧
      ref.key .domain = e.timeline.key .domain := by
  intro out
  have hrun : Resolves ((n.weak (site opened)).resolve routes.lift (t.recordAll rs).batch commitId
      headers) e w out.1.1 out.1.2 out.2 := rfl
  obtain ⟨hr, -, staged, hmessage, hqueue⟩ := staged_of_resolve hyoung hrun
  have hrecorded : ∀ event ∈ (t.recordAll rs).batch, event.stream = ref ∧ event.Legible := by
    intro event hevent
    rcases Timeline.of_mem_batch_recordAll hevent with hmem | ⟨hstream, ⟨r, hrs, htime⟩, hversion⟩
    · rw [hclean] at hmem
      cases hmem
    · refine ⟨hstream.trans ht, htime ▸ htimes r hrs, ?_, ?_⟩ <;>
        simp only [newStreamVersion] at hversion <;> omega
  have hstream : staged.message.stream? = some ref := by
    obtain ⟨first, others, hevents⟩ := List.exists_cons_of_ne_nil hbatch
    have hfirst := (hrecorded first (by simp [hevents])).1
    simp only [hmessage, ConflictBatch.stream?, hevents, List.head?_cons, Option.map_some, hfirst,
      hentity, Entity.parents, he]
  have hread : ConflictBatch.decode staged.message.toJson = .ok staged.message := by
    refine ConflictBatch.decode_toJson fun event hevent => ?_
    rw [hmessage] at hevent
    exact (hrecorded event hevent).2
  exact ⟨hr, staged, hqueue, by rw [hmessage], hstream, ⟨_, hread, rfl, hstream⟩, by
    rw [Timeline.key, he]⟩

end World

namespace Cluster

/-- A tally below two accounts, with separators in its bucket and in its identifier. -/
def deepStream : StreamRef :=
  ⟨"tally", "eu-[1]", "a:b.c", [⟨"account", "x"⟩, ⟨"account", ""⟩]⟩

def noted : List Timeline.Recording :=
  [.domain ⟨.numbered 1, .epoch⟩ "tally.step"
      (.object [("n", .int 1), ("note", .array [.null, .string "oob"])])
      (Std.ExtTreeMap.ofList [("commit_headers", ""), ("by", "x")]),
    .oob ⟨.numbered 2, .epoch⟩ "tally.noted" (.string "late") "audit" ∅]

end Cluster

/-- A step and a note are staged under the key of their stream. -/
theorem World.self_describing_noted :
    let w : World := (Cluster.start (C := Cluster.tallies) .epoch).world
    let routes := Cluster.tallies.routes ()
    let node := (Cluster.teller 0).node
    let e : Entity Samples.Tally := ⟨routes.initial, .empty Cluster.deepStream, 0⟩
    let out := (((node.weak (World.site .epoch)).resolve routes.lift
      ((Timeline.empty Cluster.deepStream).recordAll Cluster.noted).batch (.numbered 9) ∅).run.run
        e).run w
    ∃ staged : Staged ConflictBatch,
      out.2.queue node.area (Cluster.deepStream.key .domain) = [staged] ∧
      staged.message.events.map Event.kind = ["tally.step", "tally.noted"] ∧
      ConflictBatch.decode staged.message.toJson = .ok staged.message ∧
      staged.message.stream? = some Cluster.deepStream := by
  intro w routes node e out
  obtain ⟨-, staged, hqueue, hevents, hstream, ⟨read, hread, rfl, -⟩, -⟩ :=
    World.self_describing node .epoch w Cluster.deepStream routes e (.empty Cluster.deepStream)
      Cluster.noted (.numbered 9) ∅ rfl rfl rfl rfl (by decide) (by decide) (by decide) (by decide)
      (by decide)
  exact ⟨staged, hqueue, by rw [hevents]; rfl, hread, hstream⟩

end Chronicle
