import CodeAtlas.Graph.Identity
import CodeAtlas.Proofs.Digest
import CodeAtlas.Proofs.Graph.Writes
import CodeAtlas.Proofs.Json.Strings

/-! Ids tell labels apart by themselves; that they tell identities apart rests on SHA-1 not
colliding on the payloads in question, and on nothing else. -/
namespace CodeAtlas.Graph

theorem label_name_injective : Function.Injective Label.name := by
  intro a b h
  cases a <;> cases b <;> first | rfl | (exact absurd h (by decide))

theorem label_name_before_separator (label : Label) (rest : List Char) :
    (label.name.toList ++ ':' :: rest).takeWhile (· ≠ ':') = label.name.toList := by
  cases label <;> rfl

theorem label_of_id {a b : Identity} (h : a.id = b.id) : a.label = b.label := by
  have chars := congrArg (fun id => id.toList.takeWhile (· ≠ ':')) h
  simp only [Identity.id, String.toList_append, String.reduceToList, List.append_assoc,
    List.cons_append, List.nil_append, label_name_before_separator] at chars
  exact label_name_injective (String.toList_inj.mp chars)

theorem digest_of_id {a b : Identity} (h : a.id = b.id) :
    Digest.ofText a.payload = Digest.ofText b.payload := by
  have labels := label_of_id h
  simp only [Identity.id, labels] at h
  exact (String.append_right_inj _).mp h

theorem payload_injective : Function.Injective Identity.payload := by
  rintro ⟨label, key, context⟩ ⟨label', key', context'⟩ h
  have fields := Json.compact_texts_inj h
  simp only [List.cons.injEq] at fields
  obtain ⟨labels, rfl, rfl⟩ := fields
  rw [label_name_injective labels]

/-- SHA-1 has no collision on the payloads of these identities. -/
def CollisionFree (identities : List Identity) : Prop :=
  ∀ i ∈ identities, ∀ j ∈ identities,
    Digest.ofText i.payload = Digest.ofText j.payload → i.payload = j.payload

def Identity.bytes (identity : Identity) : List UInt8 := identity.payload.toUTF8.data.toList

def Identity.words (identity : Identity) : Digest.State := Digest.wordsOfMessage identity.bytes

theorem collision_free_iff {identities : List Identity} : CollisionFree identities ↔
    ∀ i ∈ identities, ∀ j ∈ identities, i.words = j.words → i = j := by
  simp only [CollisionFree, Digest.ofText, Digest.sha1_eq_iff_words, payload_injective.eq_iff]
  rfl

instance (identities : List Identity) : Decidable (CollisionFree identities) :=
  decidable_of_iff _ collision_free_iff.symm

theorem CollisionFree.eq_of_id {identities : List Identity} (free : CollisionFree identities)
    {i j : Identity} (hi : i ∈ identities) (hj : j ∈ identities) (h : i.id = j.id) : i = j :=
  payload_injective (free i hi j hj (digest_of_id h))

def Identity.Proper (identity : Identity) : Prop :=
  identity.key.length = identity.label.keyColumns.length

theorem length_of_mapM_ok {α β ε : Type} {f : α → Except ε β} {xs : List α} {ys : List β}
    (h : xs.mapM f = .ok ys) : ys.length = xs.length := by
  induction xs generalizing ys with
  | nil =>
    obtain rfl := Except.ok.inj h
    rfl
  | cons x xs ih =>
    simp only [List.mapM_cons, Bind.bind, Except.bind] at h
    cases first : f x with
    | error error => simp [first] at h
    | ok y =>
      cases rest : xs.mapM f with
      | error error => simp [first, rest] at h
      | ok tail =>
        simp only [first, rest] at h
        obtain rfl := Except.ok.inj h
        simp [ih rest]

theorem of_fields_proper {isTooDeep : Json → Bool} {label : String}
    {fields : List (String × Json)} {context : String} {identity : Identity}
    (h : Identity.ofFields isTooDeep label fields context = .ok identity) : identity.Proper := by
  simp only [Identity.ofFields, Bind.bind, Except.bind] at h
  cases named : Label.ofName label with
  | error error => simp [named] at h
  | ok label =>
    cases keyed : label.keyOf isTooDeep fields with
    | error error => simp [named, keyed] at h
    | ok key =>
      simp only [named, keyed] at h
      obtain rfl := Except.ok.inj h
      exact length_of_mapM_ok keyed

/-! Identities by the fields they are made of. -/

theorem Label.ofName?_eq_some {written : String} {label : Label} :
    Label.ofName? written = some label ↔ label.name = written := by
  constructor
  · intro found
    simpa using List.find?_some found
  · rintro rfl
    cases label <;> decide

theorem printed_eq_ok {isTooDeep : Json → Bool} {value : Json} {text : String}
    (shown : value.printed isTooDeep = .ok text) : text = value.plain := by
  unfold Json.printed at shown
  split at shown
  · exact (Except.ok.inj shown).symm
  · split_ifs at shown
    exact (Except.ok.inj shown).symm

theorem Label.keyOf_eq_ok {label : Label} {isTooDeep : Json → Bool}
    {fields : List (String × Json)} {key : List String}
    (keyed : label.keyOf isTooDeep fields = .ok key) :
    key.map some = label.keyColumns.map fun column => (fields.lookup column).map Json.plain := by
  rw [Label.keyOf] at keyed
  generalize label.keyColumns = columns at keyed
  induction columns generalizing key with
  | nil =>
    rw [List.mapM_nil] at keyed
    exact Except.ok.inj keyed ▸ rfl
  | cons column columns ih =>
    rw [List.mapM_cons] at keyed
    obtain ⟨first, shown, keyed⟩ := except_bind keyed
    obtain ⟨rest, others, keyed⟩ := except_bind keyed
    obtain rfl := Except.ok.inj keyed
    cases found : fields.lookup column with
    | none =>
      rw [found] at shown
      cases shown
    | some value =>
      rw [found] at shown
      simp [found, ih others, printed_eq_ok shown]

theorem Identity.ofFields_eq_ok {isTooDeep : Json → Bool} {label context : String}
    {fields : List (String × Json)} {identity : Identity}
    (made : Identity.ofFields isTooDeep label fields context = .ok identity) :
    identity.label.name = label ∧ identity.context = context ∧
      identity.key.map some =
        identity.label.keyColumns.map fun column => (fields.lookup column).map Json.plain := by
  obtain ⟨known, named, made⟩ := except_bind made
  obtain ⟨key, keyed, made⟩ := except_bind made
  obtain rfl := Except.ok.inj made
  refine ⟨?_, rfl, Label.keyOf_eq_ok keyed⟩
  rw [Label.ofName] at named
  cases found : Label.ofName? label with
  | none =>
    rw [found] at named
    cases named
  | some own =>
    rw [found] at named
    obtain rfl := Except.ok.inj named
    exact Label.ofName?_eq_some.mp found

/-! Ids of identities. -/

theorem digest_payload (identity : Identity) :
    Digest.ofText identity.payload = Digest.sha1 identity.bytes := by
  rw [Digest.ofText, Identity.bytes]

theorem bytes_injective : Function.Injective Identity.bytes :=
  fun _ _ same => payload_injective (Text.utf8_injective same)

theorem id_eq_iff {a b : Identity} :
    a.id = b.id ↔ a = b ∨ (a.label = b.label ∧ Digest.Collision a.bytes b.bytes) := by
  constructor
  · intro same
    have digests := digest_of_id same
    rw [digest_payload, digest_payload] at digests
    exact (Digest.sha1_eq_iff.mp digests).imp (@bytes_injective a b) fun collide =>
      ⟨label_of_id same, collide⟩
  · rintro (rfl | ⟨labels, -, same⟩)
    · rfl
    · rw [Identity.id, Identity.id, labels, digest_payload, digest_payload,
        Digest.sha1_eq_iff_words.mpr same]

/-- Two labels with their key fields and contexts are the same: label, context and, as plain texts,
the values of all key columns. -/
structure SameKey (label other : String) (fields others : List (String × Json))
    (context elsewhere : String) (columns : List String) : Prop where
  label : label = other
  context : context = elsewhere
  values : ∀ column ∈ columns,
    (fields.lookup column).map Json.plain = (others.lookup column).map Json.plain

theorem same_key_iff {isTooDeep : Json → Bool} {label other context elsewhere : String}
    {fields others : List (String × Json)} {a b : Identity}
    (first : Identity.ofFields isTooDeep label fields context = .ok a)
    (second : Identity.ofFields isTooDeep other others elsewhere = .ok b) :
    a = b ↔ SameKey label other fields others context elsewhere a.label.keyColumns := by
  obtain ⟨rfl, rfl, key⟩ := Identity.ofFields_eq_ok first
  obtain ⟨rfl, rfl, key'⟩ := Identity.ofFields_eq_ok second
  constructor
  · rintro rfl
    exact ⟨rfl, rfl, List.map_inj_left.mp (key.symm.trans key')⟩
  · rintro ⟨labels, contexts, values⟩
    obtain ⟨label, values', context⟩ := a
    obtain ⟨label', values'', context'⟩ := b
    obtain rfl : label = label' := label_name_injective labels
    obtain rfl : context = context' := contexts
    have keys : values'.map some = values''.map some :=
      key.trans ((List.map_inj_left.mpr values).trans key'.symm)
    rw [(List.map_inj_right fun _ _ => Option.some.inj).mp keys]

/-- What is digested for a node is the compact list of its label, its context and the plain texts of
its key columns, and this list tells them apart whatever characters they are made of. So two nodes
share an id only if they are one, or if SHA-1 collides on what is digested for them. -/
theorem ids_tell_apart {isTooDeep : Json → Bool} {label other context elsewhere : String}
    {fields others : List (String × Json)} {a b : Identity}
    (first : Identity.ofFields isTooDeep label fields context = .ok a)
    (second : Identity.ofFields isTooDeep other others elsewhere = .ok b) :
    a.payload = (Json.list (.text label :: .text context :: a.label.keyColumns.map fun column =>
        .text (((fields.lookup column).map Json.plain).getD ""))).compact ∧
      (a.bytes = b.bytes ↔
        SameKey label other fields others context elsewhere a.label.keyColumns) ∧
      (a.id = b.id ↔
        SameKey label other fields others context elsewhere a.label.keyColumns ∨
          (label = other ∧ Digest.Collision a.bytes b.bytes)) := by
  have same := same_key_iff first second
  refine ⟨?_, bytes_injective.eq_iff.trans same, ?_⟩
  · obtain ⟨rfl, rfl, key⟩ := Identity.ofFields_eq_ok first
    have values := congrArg (List.map (·.getD "")) key
    simp only [List.map_map, Function.comp_def, Option.getD_some, List.map_id'] at values
    rw [Identity.payload, Json.texts, values]
    simp only [List.map_cons, List.map_map, Function.comp_def]
  · rw [id_eq_iff, same]
    obtain ⟨rfl, -⟩ := Identity.ofFields_eq_ok first
    obtain ⟨rfl, -⟩ := Identity.ofFields_eq_ok second
    rw [label_name_injective.eq_iff]

def imitating (name language : String) : List (String × Json) :=
  [("language", .text language), ("name", .text name)]

theorem imitated_separators_told_apart :
    ∃ a b : Identity,
      Identity.ofFields (fun _ => false) "Function" (imitating "f\",\"g" "ts") "main" = .ok a ∧
        Identity.ofFields (fun _ => false) "Function" (imitating "f" "g\",\"ts") "main" = .ok b ∧
        a.payload = "[\"Function\",\"main\",\"f\\\",\\\"g\",\"ts\"]" ∧
        a.bytes ≠ b.bytes ∧ (a.id = b.id → Digest.Collision a.bytes b.bytes) := by
  have apart : ¬SameKey "Function" "Function" (imitating "f\",\"g" "ts") (imitating "f" "g\",\"ts")
      "main" "main" ["name", "language"] := fun same =>
    absurd (same.values "name" (by decide)) (by decide)
  have first : Identity.ofFields (fun _ => false) "Function" (imitating "f\",\"g" "ts") "main" =
      .ok ⟨.function, ["f\",\"g", "ts"], "main"⟩ := rfl
  have second : Identity.ofFields (fun _ => false) "Function" (imitating "f" "g\",\"ts") "main" =
      .ok ⟨.function, ["f", "g\",\"ts"], "main"⟩ := rfl
  obtain ⟨written, bytes, ids⟩ := ids_tell_apart first second
  exact ⟨_, _, first, second, written.trans (by decide), fun same => apart (bytes.mp same),
    fun same => (ids.mp same).elim (fun key => absurd key apart) And.right⟩

end CodeAtlas.Graph
