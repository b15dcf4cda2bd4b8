import Chronicle.Proofs.Histories

/-!
# Reading keys back, and which children share them

A key is one text: the lane, the bucket, the identifiers of the parents between brackets, the kind
and the identifier. The lane is read up to the first dash, and so is the bucket if it contains no
dash; the chain of parents ends at the first bracket, the kind at the next dash, and the rest is the
identifier, whatever it contains. Behind the identifier a channel is named, which can be told apart
if the identifier contains no dot.

Of a parent only its identifier is written. Two parents that differ in their identifiers, or in
those of their own parents, have children with different keys. Two parents that differ in their
kind alone are different entities, and their children share every key.
-/

namespace Chronicle

/-- A text is cut where a character stands for the first time. -/
theorem append_cons_inj {α : Type} {c : α} {s s' t t' : List α} (hs : c ∉ s) (hs' : c ∉ s') :
    s ++ c :: t = s' ++ c :: t' ↔ s = s' ∧ t = t' := by
  -- The two prefixes are compared character by character: neither can end before the other.
  induction s generalizing s' with
  | nil =>
    cases s' with
    | nil => simp
    | cons a s' => simpa using fun h => absurd h.symm (List.ne_of_not_mem_cons hs').symm
  | cons a s ih =>
    cases s' with
    | nil => simpa using fun h => absurd h (List.ne_of_not_mem_cons hs).symm
    | cons a' s' =>
      rw [List.cons_append, List.cons_append, List.cons.injEq, List.cons.injEq, and_assoc,
        ih (List.not_mem_of_not_mem_cons hs) (List.not_mem_of_not_mem_cons hs')]

/-- An identifier that can stand in a chain: it is read up to the next colon or bracket. -/
structure Link (id : String) : Prop where
  ne_empty : id ≠ ""
  colon : ':' ∉ id.toList
  bracket : ']' ∉ id.toList

instance (id : String) : Decidable (Link id) :=
  decidable_of_iff (id ≠ "" ∧ ':' ∉ id.toList ∧ ']' ∉ id.toList)
    ⟨fun ⟨h, hc, hb⟩ => ⟨h, hc, hb⟩, fun h => ⟨h.1, h.2, h.3⟩⟩

theorem intercalate_inj {ids ids' : List String} (h : ∀ id ∈ ids, Link id)
    (h' : ∀ id ∈ ids', Link id) :
    ":".intercalate ids = ":".intercalate ids' ↔ ids = ids' := by
  refine ⟨fun he => ?_, fun he => by rw [he]⟩
  rw [← String.toList_inj, String.toList_intercalate, String.toList_intercalate] at he
  have hcolon : ∀ {ids : List String}, (∀ id ∈ ids, Link id) →
      ∀ l ∈ ids.map String.toList, ':' ∉ l := by
    intro ids h l hl
    obtain ⟨id, hid, rfl⟩ := List.mem_map.1 hl
    exact (h id hid).colon
  cases ids with
  | nil =>
    cases ids' with
    | nil => rfl
    | cons id' ids' =>
      have hne := (h' id' (by simp)).ne_empty
      cases ids' <;> simp_all
  | cons id ids =>
    cases ids' with
    | nil =>
      have hne := (h id (by simp)).ne_empty
      cases ids <;> simp_all
    | cons id' ids' =>
      -- No identifier has a colon in it, so the chain can be split at its colons again.
      have hsplit := congrArg (List.splitOn ':') he
      rw [show ":".toList = [':'] from rfl, List.splitOn_intercalate _ (hcolon h) (by simp),
        List.splitOn_intercalate _ (hcolon h') (by simp)] at hsplit
      exact List.map_injective_iff.2 (fun _ _ => String.toList_inj.1) hsplit

theorem not_mem_intercalate {c : Char} {sep : String} {ids : List String}
    (hsep : c ∉ sep.toList) (h : ∀ id ∈ ids, c ∉ id.toList) :
    c ∉ (sep.intercalate ids).toList := by
  rw [String.toList_intercalate]
  induction ids with
  | nil => simp
  | cons id ids ih =>
    have hid := h id (by simp)
    have hrest := ih fun id' hid' => h id' (by simp [hid'])
    cases ids with
    | nil => simpa using hid
    | cons id' ids =>
      simp only [List.map_cons, List.intercalate_cons_cons, List.mem_append, not_or] at hrest ⊢
      exact ⟨⟨hid, hsep⟩, hrest⟩

theorem bracket_not_mem_intercalate {ids : List String} (h : ∀ id ∈ ids, Link id) :
    ']' ∉ (":".intercalate ids).toList :=
  not_mem_intercalate (by decide) fun id hid => (h id hid).bracket

/-- The parts of a key behind the bucket can be read back, whatever the identifier is. -/
theorem streamKey_inj {lane : Lane} {bucket kind kind' id id' : String}
    {parents parents' : List ParentRef} (hparents : ∀ p ∈ parents, Link p.id)
    (hparents' : ∀ p ∈ parents', Link p.id) (hkind : '-' ∉ kind.toList)
    (hkind' : '-' ∉ kind'.toList) :
    streamKey lane bucket parents kind id = streamKey lane bucket parents' kind' id' ↔
      parents.map ParentRef.id = parents'.map ParentRef.id ∧ kind = kind' ∧ id = id' := by
  have hlink : ∀ {parents : List ParentRef}, (∀ p ∈ parents, Link p.id) →
      ∀ id ∈ parents.map ParentRef.id, Link id := by
    intro parents h id hid
    obtain ⟨p, hp, rfl⟩ := List.mem_map.1 hid
    exact h p hp
  have htext : ∀ (parents : List ParentRef) (kind id : String),
      (streamKey lane bucket parents kind id).toList =
        (lane.name ++ "-" ++ bucket ++ "-[").toList ++
          ((":".intercalate (parents.map ParentRef.id)).toList ++
            ']' :: '-' :: (kind.toList ++ '-' :: id.toList)) := by
    intro parents kind id
    simp [streamKey, String.toList_append]
  rw [← String.toList_inj, htext, htext, List.append_cancel_left_eq,
    append_cons_inj (bracket_not_mem_intercalate (hlink hparents))
      (bracket_not_mem_intercalate (hlink hparents')),
    List.cons.injEq, append_cons_inj hkind hkind', String.toList_inj, String.toList_inj,
    String.toList_inj, intercalate_inj (hlink hparents) (hlink hparents')]
  simp only [true_and]

/-- A text without the characters that separate the parts of a key. -/
structure Separable (text : String) : Prop where
  ne_empty : text ≠ ""
  separators : ∀ c ∈ ['-', ':', '[', ']', '.'], c ∉ text.toList

theorem Separable.link {id : String} (h : Separable id) : Link id :=
  ⟨h.ne_empty, h.separators _ (by simp), h.separators _ (by simp)⟩

instance (text : String) : Decidable (Separable text) :=
  decidable_of_iff (text ≠ "" ∧ ['-', ':', '[', ']', '.'].all (! text.toList.contains ·) = true)
    ⟨fun ⟨h, h'⟩ => ⟨h, by simpa using h'⟩, fun h => ⟨h.1, by simpa using h.2⟩⟩

namespace StreamRef

theorem key_inj (r r' : StreamRef) {lane : Lane} (hbucket : r.bucket = r'.bucket)
    (hparents : ∀ p ∈ r.parents, Link p.id) (hparents' : ∀ p ∈ r'.parents, Link p.id)
    (hkind : '-' ∉ r.entity.toList) (hkind' : '-' ∉ r'.entity.toList) :
    r.key lane = r'.key lane ↔
      r.parents.map ParentRef.id = r'.parents.map ParentRef.id ∧ r.entity = r'.entity ∧
        r.id = r'.id := by
  rw [key, key, hbucket]
  exact streamKey_inj hparents hparents' hkind hkind'

theorem channelKey_inj (r r' : StreamRef) {channel channel' : String}
    (hbucket : r.bucket = r'.bucket) (hparents : ∀ p ∈ r.parents, Link p.id)
    (hparents' : ∀ p ∈ r'.parents, Link p.id) (hkind : '-' ∉ r.entity.toList)
    (hkind' : '-' ∉ r'.entity.toList) (hid : '.' ∉ r.id.toList) (hid' : '.' ∉ r'.id.toList) :
    r.channelKey channel = r'.channelKey channel' ↔
      (r.parents.map ParentRef.id = r'.parents.map ParentRef.id ∧ r.entity = r'.entity ∧
        r.id = r'.id) ∧ channel = channel' := by
  have hname : r.id ++ "." ++ channel = r'.id ++ "." ++ channel' ↔
      r.id = r'.id ∧ channel = channel' := by
    simp only [← String.toList_inj, String.toList_append, List.append_assoc]
    exact append_cons_inj hid hid'
  rw [channelKey, channelKey, hbucket, streamKey_inj hparents hparents' hkind hkind', hname,
    and_assoc, and_assoc]

/-- A stream whose keys can be read back: dashes and brackets do not stand where a part is read up
to the next one. Nothing is asked of the identifier. -/
structure Legible (r : StreamRef) : Prop where
  bucket : '-' ∉ r.bucket.toList
  kind : '-' ∉ r.entity.toList
  parents : ∀ p ∈ r.parents, Link p.id

/-- A key begins with the lane and, if it is read up to the next dash, the bucket. -/
theorem bucket_eq_of_streamKey {lane lane' : Lane} {bucket bucket' kind kind' id id' : String}
    {parents parents' : List ParentRef} (hbucket : '-' ∉ bucket.toList)
    (hbucket' : '-' ∉ bucket'.toList)
    (h : streamKey lane bucket parents kind id = streamKey lane' bucket' parents' kind' id') :
    lane = lane' ∧ bucket = bucket' := by
  have hlane : lane = lane' := by
    by_contra hne
    simp only [streamKey, String.append_assoc] at h
    exact Lane.name_append_ne hne _ _ (by simpa only [String.append_assoc] using h)
  subst hlane
  have htext : ∀ (bucket : String) (parents : List ParentRef) (kind id : String),
      (streamKey lane bucket parents kind id).toList =
        (lane.name ++ "-").toList ++ (bucket.toList ++ '-' :: '[' ::
          (":".intercalate (parents.map ParentRef.id) ++ "]-" ++ kind ++ "-" ++ id).toList) := by
    intro bucket parents kind id
    simp [streamKey, String.toList_append]
  rw [← String.toList_inj, htext, htext, List.append_cancel_left_eq,
    append_cons_inj hbucket hbucket'] at h
  exact ⟨rfl, String.toList_inj.1 h.1⟩

/-- The keys of legible streams, for every lane and with every identifier, can be read back, also
where the identifier is followed by a channel. Keys of different lanes are different for all
streams, those of channels among them. -/
theorem legible_keys {r r' : StreamRef} (h : r.Legible) (h' : r'.Legible) :
    (∀ lane lane', r.key lane = r'.key lane' →
      lane = lane' ∧ r.bucket = r'.bucket ∧
        r.parents.map ParentRef.id = r'.parents.map ParentRef.id ∧ r.entity = r'.entity ∧
        r.id = r'.id) ∧
    ('.' ∉ r.id.toList → '.' ∉ r'.id.toList → ∀ channel channel',
      r.channelKey channel = r'.channelKey channel' →
        r.bucket = r'.bucket ∧ r.parents.map ParentRef.id = r'.parents.map ParentRef.id ∧
          r.entity = r'.entity ∧ r.id = r'.id ∧ channel = channel') ∧
    ∀ s s' : StreamRef, ∀ lane lane', lane ≠ lane' →
      s.key lane ≠ s'.key lane' ∧
        (lane ≠ .oob → ∀ channel, s.key lane ≠ s'.channelKey channel) := by
  refine ⟨?keys, ?channels, fun s s' lane lane' hne =>
    ⟨key_ne_key s s' hne, fun hlane => key_ne_channelKey s s' hlane⟩⟩
  case keys =>
    intro lane lane' hkey
    obtain ⟨rfl, hbucket⟩ := bucket_eq_of_streamKey h.bucket h'.bucket hkey
    exact ⟨rfl, hbucket, (key_inj r r' hbucket h.parents h'.parents h.kind h'.kind).1 hkey⟩
  case channels =>
    intro hid hid' channel channel' hkey
    obtain ⟨-, hbucket⟩ := bucket_eq_of_streamKey h.bucket h'.bucket hkey
    obtain ⟨⟨hparents, hkind, hname⟩, hchannel⟩ :=
      (channelKey_inj r r' hbucket h.parents h'.parents h.kind h'.kind hid hid').1 hkey
    exact ⟨hbucket, hparents, hkind, hname, hchannel⟩

/-- An identifier that looks like the rest of a key, its brackets and colons included, is not taken
for the parents and the identifier of another stream. -/
theorem legible_bracketedName :
    let lookalike : StreamRef := ⟨"tally", "default", "-[x:y]-tally-1", []⟩
    let child : StreamRef := ⟨"tally", "default", "1", [⟨"account", "x"⟩, ⟨"tally", "y"⟩]⟩
    lookalike.Legible ∧ child.Legible ∧ '.' ∉ lookalike.id.toList ∧ '.' ∉ child.id.toList ∧
      (∀ lane lane', lookalike.key lane ≠ child.key lane') ∧
      ∀ channel channel', lookalike.channelKey channel ≠ child.channelKey channel' := by
  intro lookalike child
  have h : lookalike.Legible := ⟨by decide, by decide, by decide⟩
  have h' : child.Legible := ⟨by decide, by decide, by decide⟩
  obtain ⟨hkeys, hchannels, -⟩ := legible_keys h h'
  refine ⟨h, h', by decide, by decide, fun lane lane' hkey => ?_, fun channel channel' hkey => ?_⟩
  · exact absurd (hkeys lane lane' hkey).2.2.1 (by decide)
  · exact absurd (hchannels (by decide) (by decide) channel channel' hkey).2.1 (by decide)

end StreamRef

namespace Repository

variable {m : Type → Type} [Monad m] {S S' P P' : Type}

/-- The identifiers of the parents of a child, the outermost first. -/
def ancestry (routes : Routes m P) (parent : Entity P) : List String :=
  (childParents routes parent).map ParentRef.id

/-- A new child is there at once, on the stream that a child of this identifier is loaded from. -/
theorem exists_newChild (r : Repository m) (routes : Routes m S) (parentRoutes : Routes m P)
    (parent : Entity P) (id : String) :
    ∃ child, r.newChild routes parentRoutes parent id = .ok child ∧
      child.timeline.stream = r.streamRef routes id (childParents parentRoutes parent) ∧
      r.getChild routes parentRoutes parent id =
        loadEntity r.store routes child.timeline.stream :=
  ⟨⟨routes.initial, _, 0⟩, rfl, rfl, rfl⟩

/-- Two children in one bucket have different keys, for every lane and for every pair of channels
of out-of-band events, exactly if they differ in kind, in identifier, or in the identifiers of
their chains of parents. The kinds of the parents make no difference. -/
theorem keys_child_ne_iff (r : Repository m) (routes : Routes m S) (routes' : Routes m S')
    (parentRoutes : Routes m P) (parentRoutes' : Routes m P') (parent : Entity P)
    (parent' : Entity P') (id id' : String)
    (hparents : ∀ p ∈ childParents parentRoutes parent, Separable p.id)
    (hparents' : ∀ p ∈ childParents parentRoutes' parent', Separable p.id)
    (hkind : Separable routes.entity) (hkind' : Separable routes'.entity)
    (hid : Separable id) (hid' : Separable id') :
    ∃ child child', r.newChild routes parentRoutes parent id = .ok child ∧
      r.newChild routes' parentRoutes' parent' id' = .ok child' ∧
      r.getChild routes parentRoutes parent id =
        loadEntity r.store routes child.timeline.stream ∧
      r.getChild routes' parentRoutes' parent' id' =
        loadEntity r.store routes' child'.timeline.stream ∧
      (∀ lane, child.timeline.stream.key lane ≠ child'.timeline.stream.key lane ↔
        ancestry parentRoutes parent ≠ ancestry parentRoutes' parent' ∨
          routes.entity ≠ routes'.entity ∨ id ≠ id') ∧
      ∀ channel channel', child.timeline.stream.channelKey channel ≠
          child'.timeline.stream.channelKey channel' ↔
        ancestry parentRoutes parent ≠ ancestry parentRoutes' parent' ∨
          routes.entity ≠ routes'.entity ∨ id ≠ id' ∨ channel ≠ channel' := by
  obtain ⟨child, hnew, hstream, hget⟩ := r.exists_newChild routes parentRoutes parent id
  obtain ⟨child', hnew', hstream', hget'⟩ := r.exists_newChild routes' parentRoutes' parent' id'
  let ref := r.streamRef routes id (childParents parentRoutes parent)
  let ref' := r.streamRef routes' id' (childParents parentRoutes' parent')
  have hlinks : ∀ p ∈ ref.parents, Link p.id := fun p hp => (hparents p hp).link
  have hlinks' : ∀ p ∈ ref'.parents, Link p.id := fun p hp => (hparents' p hp).link
  have hdash := hkind.separators '-' (by simp)
  have hdash' := hkind'.separators '-' (by simp)
  refine ⟨child, child', hnew, hnew', hget, hget', ?lanes, ?channels⟩
  case lanes =>
    intro lane
    rw [hstream, hstream']
    refine (StreamRef.key_inj ref ref' rfl hlinks hlinks' hdash hdash').not.trans ?_
    simp only [ref, ref', streamRef, ancestry, not_and_or, ne_eq]
  case channels =>
    intro channel channel'
    rw [hstream, hstream']
    refine (StreamRef.channelKey_inj ref ref' rfl hlinks hlinks' hdash hdash'
      (hid.separators '.' (by simp)) (hid'.separators '.' (by simp))).not.trans ?_
    simp only [ref, ref', streamRef, ancestry, not_and_or, ne_eq, or_assoc]

/-- A tally and an account of the same identifier are different parents, and the lines of the one
have the keys of the lines of the other. -/
theorem keys_line_eq :
    let r : Repository (StateM World) := (Cluster.teller 0).repository .epoch
    let tallyRoutes : Routes (StateM World) Samples.Tally := (Cluster.tallies.routes ()).lift
    let accountRoutes : Routes (StateM World) Samples.Account := Samples.Account.routes
    let lineRoutes : Routes (StateM World) Samples.Line := Samples.Line.routes
    let tally : Entity Samples.Tally :=
      ⟨tallyRoutes.initial, .empty (r.streamRef tallyRoutes "x" []), 0⟩
    let account : Entity Samples.Account :=
      ⟨accountRoutes.initial, .empty (r.streamRef accountRoutes "x" []), 0⟩
    tally.parentRef tallyRoutes ≠ account.parentRef accountRoutes ∧
    ∃ line line', r.newChild lineRoutes tallyRoutes tally "1" = .ok line ∧
      r.newChild lineRoutes accountRoutes account "1" = .ok line' ∧
      ∀ lane, line.timeline.stream.key lane = line'.timeline.stream.key lane := by
  intro r tallyRoutes accountRoutes lineRoutes tally account
  refine ⟨by decide, ?_⟩
  obtain ⟨line, line', hnew, hnew', -, -, hlanes, -⟩ := keys_child_ne_iff r lineRoutes lineRoutes
    tallyRoutes accountRoutes tally account "1" "1" (by decide) (by decide) (by decide) (by decide)
    (by decide) (by decide)
  refine ⟨line, line', hnew, hnew', fun lane => ?_⟩
  by_contra hne
  exact absurd ((hlanes lane).1 hne) (by decide)

end Repository

end Chronicle
