import PathQuery.Proofs.Outcome
import PathQuery.Proofs.Structure.Induction
import PathQuery.Structure.Decode
import PathQuery.Structure.Encode
import PathQuery.Structure.Equality

/-!
# Reading what was written

A structure that is written and read again is the same node for node, its identities forgotten
(`Structure.decode_encode`). So two structures are written alike exactly if they are equal node for
node (`Structure.encode_inj`).
-/

set_option autoImplicit false

namespace PathQuery

namespace Decode

variable {record : Record} {name : String} {expected item : Expected} {value : Json} {part : Part}
  {rest : List (String × Json)} {parts : Parts}

theorem readMembers_nil : readMembers record [] = .ok [] := by
  rw [readMembers]

theorem readMembers_skip (hname : record.expected? name = none) :
    readMembers record ((name, value) :: rest) = readMembers record rest := by
  rw [readMembers, hname]

theorem readMembers_cons (hname : record.expected? name = some expected)
    (hvalue : read expected value = .ok part) (hrest : readMembers record rest = .ok parts) :
    readMembers record ((name, value) :: rest) = .ok ((name, part) :: parts) := by
  rw [readMembers, hname]
  dsimp only
  rw [hvalue, hrest]
  rfl

theorem readItems_cons {items : List Json} {others : List Part}
    (hvalue : read item value = .ok part) (hrest : readItems item items = .ok others) :
    readItems item (value :: items) = .ok (part :: others) := by
  rw [readItems, hvalue, hrest]
  rfl

theorem read_list {items : List Json} {others : List Part}
    (h : readItems item items = .ok others) :
    read (.list item) (.array items) = .ok (.list others) := by
  rw [read, h]
  rfl

/-- The tag is no field of the record that it stands for, and is passed over there. -/
theorem read_tagged {kind : Kind} {fields : List (String × Json)} {s : Structure}
    (hfields : readMembers (Record.ofKind kind) fields = .ok parts)
    (hassemble : assemble parts kind = .ok s) :
    read .shape (Structure.tagged kind fields) = .ok (.shape s) := by
  have hkind : (Record.ofKind kind).expected? "kind" = none := by cases kind <;> rfl
  have htag : Decode.kind ((("kind", Json.string kind.name) :: fields).lookup "kind") =
      .ok kind := by
    rw [List.lookup_cons_self, Decode.kind, Kind.ofName?_name]
  rw [Structure.tagged, read, htag]
  show (readMembers (Record.ofKind kind) (("kind", Json.string kind.name) :: fields)).bind _ = _
  rw [readMembers_skip hkind, hfields]
  show (assemble parts kind).map _ = _
  rw [hassemble]
  rfl

theorem readItems_texts (names : List String) :
    readItems .text (names.map .string) = .ok (names.map .text) := by
  induction names with
  | nil => rfl
  | cons name rest ih => exact readItems_cons rfl ih

@[simp] theorem texts_map_text (names : List String) : texts (names.map .text) = names := by
  rw [texts, List.filterMap_map]
  exact List.filterMap_some

@[simp] theorem structures_map_shape (shapes : List Structure) :
    structures (shapes.map .shape) = shapes := by
  rw [structures, List.filterMap_map]
  exact List.filterMap_some

@[simp] theorem properties_map_property (members : List (Property Structure)) :
    properties (members.map .property) = members := by
  rw [properties, List.filterMap_map]
  exact List.filterMap_some

end Decode

namespace Structure

open Decode (readItems readEntries readMembers_nil readMembers_cons readItems_cons read_list
  read_tagged readItems_texts texts_map_text structures_map_shape properties_map_property)

/-- Reading the structure from what it is written as gives it back. -/
def Restored (s : Structure) : Prop :=
  Decode.read .shape s.encode = .ok (.shape s.anonymous)

theorem readItems_encodeAll {structures : List Structure} (h : ∀ s ∈ structures, s.Restored) :
    readItems .shape (encodeAll structures) = .ok ((anonymousAll structures).map .shape) := by
  induction structures with
  | nil => rfl
  | cons s rest ih =>
    obtain ⟨hs, hrest⟩ := List.forall_mem_cons.mp h
    exact readItems_cons hs (ih hrest)

theorem readItems_encodeProperties {members : List (Property Structure)}
    (h : ∀ property ∈ members, property.shape.Restored) :
    readItems .property (encodeProperties members) =
      .ok ((anonymousProperties members).map .property) := by
  induction members with
  | nil => rfl
  | cons property rest ih =>
    obtain ⟨name, shape, optional⟩ := property
    obtain ⟨hshape, hrest⟩ := List.forall_mem_cons.mp h
    refine readItems_cons ?_ (ih hrest)
    rw [Decode.read]
    show (Decode.readMembers Record.property _).bind _ = _
    rw [readMembers_cons rfl rfl (readMembers_cons rfl hshape (readMembers_cons rfl rfl rfl))]
    rfl

theorem readEntries_encodeEntries {entries : List (String × Structure)}
    (h : ∀ entry ∈ entries, entry.2.Restored) :
    readEntries (encodeEntries entries) = .ok (anonymousEntries entries) := by
  induction entries with
  | nil => rfl
  | cons entry rest ih =>
    obtain ⟨name, s⟩ := entry
    obtain ⟨hs, hrest⟩ := List.forall_mem_cons.mp h
    rw [encodeEntries, readEntries, hs]
    show (readEntries (encodeEntries rest)).bind _ = _
    rw [ih hrest]
    rfl

theorem restored (s : Structure) : s.Restored := by
  induction s using Structure.induction with
  | root entries ih =>
    have hentries : Decode.read .entries (.object (encodeEntries entries)) =
        .ok (.entries (anonymousEntries entries)) := by
      rw [Decode.read, readEntries_encodeEntries ih]
      rfl
    rw [Restored, encode]
    exact read_tagged (readMembers_cons rfl hentries rfl) rfl
  | object label name parameters properties ih =>
    have hproperties := read_list (readItems_encodeProperties ih)
    have hassembled : Except.ok (object (Decode.label label.key) name
        (Decode.texts (parameters.map .text))
        (Decode.properties ((anonymousProperties properties).map .property))) =
        (.ok (anonymous (object label name parameters properties)) : Except String Structure) := by
      rw [texts_map_text, properties_map_property, anonymous]
      rfl
    rw [Restored, encode]
    -- a name and parameters are written only if there are any
    cases name with
    | none =>
      cases parameters with
      | nil =>
        exact read_tagged
          (readMembers_cons rfl rfl (readMembers_cons rfl hproperties readMembers_nil)) hassembled
      | cons first rest =>
        exact read_tagged (readMembers_cons rfl rfl
          (readMembers_cons rfl (read_list (readItems_texts (first :: rest)))
            (readMembers_cons rfl hproperties readMembers_nil))) hassembled
    | some name =>
      cases parameters with
      | nil =>
        exact read_tagged (readMembers_cons rfl rfl (readMembers_cons rfl rfl
          (readMembers_cons rfl hproperties readMembers_nil))) hassembled
      | cons first rest =>
        exact read_tagged (readMembers_cons rfl rfl (readMembers_cons rfl rfl
          (readMembers_cons rfl (read_list (readItems_texts (first :: rest)))
            (readMembers_cons rfl hproperties readMembers_nil)))) hassembled
  | typeAlias label name parameters body ih =>
    rw [Restored, encode]
    refine read_tagged (readMembers_cons rfl rfl (readMembers_cons rfl rfl
      (readMembers_cons rfl (read_list (readItems_texts _)) (readMembers_cons rfl ih rfl)))) ?_
    show Except.ok (typeAlias _ _ (Decode.texts (parameters.map .text)) _) = _
    rw [texts_map_text, anonymous]
    rfl
  | ref label target typeArguments ih =>
    rw [Restored, encode, anonymous]
    cases typeArguments with
    | nil =>
      exact read_tagged (readMembers_cons rfl rfl (readMembers_cons rfl rfl readMembers_nil)) rfl
    | cons first rest =>
      refine read_tagged (readMembers_cons rfl rfl (readMembers_cons rfl rfl
        (readMembers_cons rfl (read_list (readItems_encodeAll ih)) readMembers_nil))) ?_
      show Except.ok (ref _ _ (Decode.structures ((anonymousAll (first :: rest)).map .shape))) = _
      rw [structures_map_shape]
      rfl
  | union label members ih =>
    rw [Restored, encode]
    refine read_tagged (readMembers_cons rfl rfl (readMembers_cons rfl
      (read_list (readItems_encodeAll ih)) rfl)) ?_
    show Except.ok (union _ (Decode.structures ((anonymousAll members).map .shape))) = _
    rw [structures_map_shape, anonymous]
    rfl
  | array label items ih =>
    rw [Restored, encode]
    exact read_tagged (readMembers_cons rfl rfl (readMembers_cons rfl ih rfl)) rfl
  | nullable label inner ih =>
    rw [Restored, encode]
    exact read_tagged (readMembers_cons rfl rfl (readMembers_cons rfl ih rfl)) rfl
  | function label args returns iha ihr =>
    rw [Restored, encode]
    exact read_tagged
      (readMembers_cons rfl rfl (readMembers_cons rfl iha (readMembers_cons rfl ihr rfl))) rfl
  | arguments label items ih =>
    rw [Restored, encode]
    refine read_tagged (readMembers_cons rfl rfl (readMembers_cons rfl
      (read_list (readItems_encodeProperties ih)) rfl)) ?_
    show Except.ok (arguments _ (Decode.properties ((anonymousProperties items).map .property))) = _
    rw [properties_map_property, anonymous]
    rfl
  | primitive label type =>
    have htype : Decode.read .primitive (.string type.name) = .ok (.primitive type) := by
      rw [Decode.read, Decode.primitive, Decode.primitiveNamed, Primitive.ofName?_name]
      rfl
    rw [Restored, encode]
    exact read_tagged (readMembers_cons rfl rfl (readMembers_cons rfl htype rfl)) rfl
  | literal label value =>
    have hvalue : Decode.read .value value = .ok (.value value) := by rw [Decode.read]
    rw [Restored, encode]
    exact read_tagged (readMembers_cons rfl rfl (readMembers_cons rfl hvalue rfl)) rfl

theorem decode_encode (s : Structure) : decode s.encode = .ok s.anonymous := by
  rw [decode, s.restored]
  rfl

/-! ## Identities -/

mutual

theorem anonymous_number (next : Nat) (s : Structure) :
    (number next s).1.anonymous = s.anonymous := by
  cases s <;>
    simp [number, anonymous, anonymous_number, anonymousAll_number, anonymousProperties_number,
      anonymousEntries_number]
termination_by structural s

theorem anonymousAll_number (next : Nat) (structures : List Structure) :
    anonymousAll (numberAll next structures).1 = anonymousAll structures := by
  cases structures <;> simp [numberAll, anonymousAll, anonymous_number, anonymousAll_number]
termination_by structural structures

theorem anonymousProperties_number (next : Nat) (members : List (Property Structure)) :
    anonymousProperties (numberProperties next members).1 = anonymousProperties members := by
  cases members with
  | nil => rfl
  | cons member rest =>
    obtain ⟨name, shape, optional⟩ := member
    simp [numberProperties, anonymousProperties, anonymous_number, anonymousProperties_number]
termination_by structural members

theorem anonymousEntries_number (next : Nat) (entries : List (String × Structure)) :
    anonymousEntries (numberEntries next entries).1 = anonymousEntries entries := by
  cases entries with
  | nil => rfl
  | cons entry rest =>
    obtain ⟨name, s⟩ := entry
    simp [numberEntries, anonymousEntries, anonymous_number, anonymousEntries_number]
termination_by structural entries

end

mutual

theorem encode_anonymous (s : Structure) : s.anonymous.encode = s.encode := by
  cases s <;>
    simp [anonymous, encode, encode_anonymous, encodeAll_anonymous, encodeProperties_anonymous,
      encodeEntries_anonymous]
termination_by structural s

theorem encodeAll_anonymous (structures : List Structure) :
    encodeAll (anonymousAll structures) = encodeAll structures := by
  cases structures <;> simp [anonymousAll, encodeAll, encode_anonymous, encodeAll_anonymous]
termination_by structural structures

theorem encodeProperties_anonymous (members : List (Property Structure)) :
    encodeProperties (anonymousProperties members) = encodeProperties members := by
  cases members with
  | nil => rfl
  | cons member rest =>
    obtain ⟨name, shape, optional⟩ := member
    simp [anonymousProperties, encodeProperties, encode_anonymous, encodeProperties_anonymous]
termination_by structural members

theorem encodeEntries_anonymous (entries : List (String × Structure)) :
    encodeEntries (anonymousEntries entries) = encodeEntries entries := by
  cases entries with
  | nil => rfl
  | cons entry rest =>
    obtain ⟨name, s⟩ := entry
    simp [anonymousEntries, encodeEntries, encode_anonymous, encodeEntries_anonymous]
termination_by structural entries

end
/-- What is written says everything but the identities. -/
theorem encode_inj {s t : Structure} : s.encode = t.encode ↔ s.anonymous = t.anonymous := by
  constructor
  · intro h
    have hread := s.decode_encode
    rw [h, t.decode_encode] at hread
    exact (Except.ok.inj hread).symm
  · intro h
    rw [← encode_anonymous, h, encode_anonymous]

theorem anonymous_anonymous (s : Structure) : s.anonymous.anonymous = s.anonymous :=
  encode_inj.mp (encode_anonymous s)

end Structure

end PathQuery
