import PathQuery.Proofs.Schema.Acceptance
import PathQuery.Proofs.Structure.Encoding

/-!
# Schemas as documents

Acceptance looks at keys, names and shapes but at no identity (`Declarations.validate_anonymous`),
and a document that was written has no unknown kind (`Schema.unknownKind?_encode`). So the document
of a schema is read back as an equal one (`Schema.ofJson_toJson`).
-/

set_option autoImplicit false

namespace PathQuery

namespace Keyed

variable {α : Type}

theorem set_of_not_mem {name : String} {value : α} {entries : List (String × α)}
    (h : name ∉ names entries) : set name value entries = entries ++ [(name, value)] := by
  induction entries with
  | nil => rfl
  | cons entry rest ih =>
    obtain ⟨hfirst, hrest⟩ := not_or.mp (mt List.mem_cons.mpr h)
    rw [set, if_neg fun heq => hfirst heq.symm, ih hrest, List.cons_append]

/-- Pairs with distinct names are entered as they stand. -/
theorem ofList_eq_self {entries : List (String × α)} (h : (names entries).Nodup) :
    ofList entries = entries := by
  induction entries using List.reverseRecOn with
  | nil => rfl
  | append_singleton entries entry ih =>
    rw [names, List.map_append, List.map_singleton] at h
    obtain ⟨hentries, _, hapart⟩ := List.nodup_append.mp h
    rw [ofList_concat, ih hentries, set_of_not_mem]
    exact fun hmem => hapart entry.1 hmem entry.1 List.mem_cons_self rfl

end Keyed

namespace Structure

theorem names_anonymousEntries (entries : List (String × Structure)) :
    Keyed.names (anonymousEntries entries) = Keyed.names entries := by
  rw [Keyed.names, anonymousEntries_eq_map, List.map_map]
  rfl

theorem anonymousEntries_anonymousEntries (entries : List (String × Structure)) :
    anonymousEntries (anonymousEntries entries) = anonymousEntries entries :=
  root.inj (anonymous_anonymous (root entries))

theorem encodeEntries_eq_map (entries : List (String × Structure)) :
    encodeEntries entries = entries.map fun entry => (entry.1, entry.2.encode) := by
  induction entries with
  | nil => rfl
  | cons entry rest ih =>
    obtain ⟨name, s⟩ := entry
    rw [encodeEntries, ih]
    rfl

theorem encode_eq_tagged (s : Structure) : ∃ fields, s.encode = tagged s.kind fields := by
  cases s <;> exact ⟨_, by rw [encode]; rfl⟩

end Structure

namespace Declarations

open Structure (anonymous anonymousAll anonymousProperties anonymousEntries anonymousAll_eq_map
  anonymousEntries_eq_map lookup_anonymousEntries parameters_anonymous)

variable (declarations : Declarations) (scope : List String)

/-! ## Acceptance without identities -/

theorem applied_anonymous (label : Label) (target : String) (count : Nat) :
    applied (anonymousEntries declarations) { label with identity := 0 } target count =
      (applied declarations label target count).map anonymous := by
  rw [applied, applied, lookup_anonymousEntries]
  cases declarations.lookup target with
  | none => rfl
  | some declaration =>
    dsimp only [Option.map_some]
    rw [parameters_anonymous]
    split <;> rfl

theorem checkApplication_anonymous (label : Label) (target : String) (count : Nat) :
    checkApplication (anonymousEntries declarations) scope { label with identity := 0 } target
      count = checkApplication declarations scope label target count := by
  rw [checkApplication, checkApplication, applied_anonymous, Except.map_map]
  rfl

mutual

theorem check_anonymous (s : Structure) :
    check (anonymousEntries declarations) scope s.anonymous = check declarations scope s := by
  cases s with
  | ref label target typeArguments =>
    have hcount : (anonymousAll typeArguments).length = typeArguments.length := by
      rw [anonymousAll_eq_map, List.length_map]
    rw [anonymous, check, check, hcount, checkApplication_anonymous, checkAll_anonymous]
  | _ =>
    simp [anonymous, check, check_anonymous, checkAll_anonymous, checkProperties_anonymous]
termination_by structural s

theorem checkAll_anonymous (structures : List Structure) :
    checkAll (anonymousEntries declarations) scope (anonymousAll structures) =
      checkAll declarations scope structures := by
  cases structures <;> simp [anonymousAll, checkAll, check_anonymous, checkAll_anonymous]
termination_by structural structures

theorem checkProperties_anonymous (members : List (Property Structure)) :
    checkProperties (anonymousEntries declarations) scope (anonymousProperties members) =
      checkProperties declarations scope members := by
  cases members with
  | nil => rfl
  | cons member rest =>
    obtain ⟨name, shape, optional⟩ := member
    simp [anonymousProperties, checkProperties, check_anonymous, checkProperties_anonymous]
termination_by structural members

end

theorem validate_anonymous : validate (anonymousEntries declarations) = validate declarations := by
  rw [validate, validate, Structure.anonymousEntries_anonymousEntries]
  refine congrArg (· >>= _) ?_
  rw [anonymousEntries_eq_map, List.forM_eq_forM, List.forM_map, ← anonymousEntries_eq_map]
  simp only [parameters_anonymous, check_anonymous]

end Declarations

namespace Schema

open Structure (encode encodeAll encodeProperties encodeEntries tagged unlessEmpty nameList)

/-! ## Kinds of what was written -/

theorem unknownKindAmong?_eq_none_iff {items : List Json} :
    unknownKindAmong? items = none ↔ ∀ item ∈ items, unknownKind? item = none := by
  induction items with
  | nil => simp [unknownKindAmong?]
  | cons item rest ih => simp [unknownKindAmong?, ih]

theorem unknownKindAmongMembers?_eq_none_iff {members : List (String × Json)} :
    unknownKindAmongMembers? members = none ↔ ∀ member ∈ members, unknownKind? member.2 = none := by
  induction members with
  | nil => simp [unknownKindAmongMembers?]
  | cons member rest ih => simp [unknownKindAmongMembers?, ih]

@[simp] theorem unknownKind?_string (text : String) : unknownKind? (.string text) = none := by
  rw [unknownKind?]
  all_goals exact nofun

theorem unknownKind?_array {items : List Json} (h : ∀ item ∈ items, unknownKind? item = none) :
    unknownKind? (.array items) = none := by
  rw [unknownKind?]
  exact unknownKindAmong?_eq_none_iff.mpr h

theorem unknownKind?_unlessEmpty {name : String} {items : List Json}
    (h : unknownKind? (.array items) = none) :
    ∀ field ∈ unlessEmpty name items, unknownKind? field.2 = none := by
  rw [unlessEmpty]
  split
  · exact nofun
  · exact List.forall_mem_singleton.mpr h

theorem unknownKind?_tagged {kind : Kind} {fields : List (String × Json)}
    (h : ∀ field ∈ fields, unknownKind? field.2 = none) :
    unknownKind? (tagged kind fields) = none := by
  have hfields := unknownKindAmongMembers?_eq_none_iff.mpr h
  rw [tagged, unknownKind?, List.lookup_cons_self]
  dsimp only
  rw [Kind.ofName?_name, if_neg (by simp), unknownKindAmongMembers?, hfields]
  rfl

/-- A name of an entry is no kind, not even if the entry is called so. -/
theorem unknownKind?_encodeEntries {entries : List (String × Structure)}
    (h : ∀ entry ∈ entries, unknownKind? entry.2.encode = none) :
    unknownKind? (.object (encodeEntries entries)) = none := by
  have hmembers : unknownKindAmongMembers? (encodeEntries entries) = none := by
    induction entries with
    | nil => rfl
    | cons entry rest ih =>
      obtain ⟨name, s⟩ := entry
      obtain ⟨hs, hrest⟩ := List.forall_mem_cons.mp h
      rw [encodeEntries, unknownKindAmongMembers?, hs, ih hrest]
      rfl
  have hlookup := Keyed.lookup_mapValues encode entries "kind"
  rw [← Structure.encodeEntries_eq_map] at hlookup
  rw [unknownKind?, hlookup]
  split
  · next name hname =>
    obtain ⟨s, _, hs⟩ := Option.map_eq_some_iff.mp hname
    obtain ⟨fields, hfields⟩ := s.encode_eq_tagged
    cases hfields.symm.trans hs
  · exact hmembers

theorem unknownKind?_encodeAll {structures : List Structure}
    (h : ∀ s ∈ structures, unknownKind? s.encode = none) :
    unknownKind? (.array (encodeAll structures)) = none := by
  refine unknownKind?_array ?_
  induction structures with
  | nil => exact nofun
  | cons s rest ih =>
    obtain ⟨hs, hrest⟩ := List.forall_mem_cons.mp h
    exact List.forall_mem_cons.mpr ⟨hs, ih hrest⟩

theorem unknownKind?_encodeProperties {members : List (Property Structure)}
    (h : ∀ property ∈ members, unknownKind? property.shape.encode = none) :
    unknownKind? (.array (encodeProperties members)) = none := by
  refine unknownKind?_array ?_
  induction members with
  | nil => exact nofun
  | cons member rest ih =>
    obtain ⟨name, shape, optional⟩ := member
    obtain ⟨hshape, hrest⟩ := List.forall_mem_cons.mp h
    refine List.forall_mem_cons.mpr ⟨?_, ih hrest⟩
    simp [unknownKind?, unknownKindAmongMembers?, List.lookup_cons, hshape]

theorem unknownKind?_texts (names : List String) :
    unknownKind? (.array (names.map .string)) = none :=
  unknownKind?_array (by simp [unknownKind?])

theorem unknownKind?_encode {declarations : Declarations} {scope : List String} {s : Structure}
    (h : declarations.check scope s = .ok ()) : unknownKind? s.encode = none := by
  induction s using Structure.induction with
  | root entries _ => cases h
  | object label name parameters properties ih =>
    have hproperties := unknownKind?_encodeProperties fun property hproperty =>
      ih property hproperty (Declarations.checkProperties_eq_ok_iff.mp h property hproperty)
    rw [encode]
    refine unknownKind?_tagged ?_
    simp only [List.forall_mem_append, List.forall_mem_cons]
    have hparameters := unknownKind?_texts parameters
    refine ⟨⟨⟨unknownKind?_string _, ?_⟩, unknownKind?_unlessEmpty hparameters⟩, hproperties, nofun⟩
    cases name <;> simp
  | typeAlias label name parameters body ih =>
    rw [encode]
    refine unknownKind?_tagged ?_
    simp [nameList, unknownKind?_texts, ih h]
  | ref label target typeArguments ih =>
    have harguments := unknownKind?_encodeAll fun argument hargument =>
      ih argument hargument ((Declarations.check_ref_eq_ok_iff.mp h).2 argument hargument)
    rw [encode]
    refine unknownKind?_tagged ?_
    simp only [List.forall_mem_cons]
    exact ⟨unknownKind?_string _, unknownKind?_string _, unknownKind?_unlessEmpty harguments⟩
  | union label members ih =>
    have hmembers := unknownKind?_encodeAll fun member hmember =>
      ih member hmember (Declarations.checkAll_eq_ok_iff.mp h member hmember)
    rw [encode]
    refine unknownKind?_tagged ?_
    simp [hmembers]
  | array label items ih =>
    rw [encode]
    refine unknownKind?_tagged ?_
    simp [ih h]
  | nullable label inner ih =>
    rw [encode]
    refine unknownKind?_tagged ?_
    simp [ih h]
  | function label args returns iha ihr =>
    obtain ⟨_, hargs, hreturns⟩ := Declarations.check_function_eq_ok_iff.mp h
    rw [encode]
    refine unknownKind?_tagged ?_
    simp [iha hargs, ihr hreturns]
  | arguments label items ih =>
    have hitems := unknownKind?_encodeProperties fun item hitem =>
      ih item hitem (Declarations.checkProperties_eq_ok_iff.mp h item hitem)
    rw [encode]
    refine unknownKind?_tagged ?_
    simp [hitems]
  | primitive label type =>
    rw [encode]
    refine unknownKind?_tagged ?_
    simp
  | literal label value =>
    rw [Declarations.check] at h
    rw [encode]
    refine unknownKind?_tagged ?_
    cases value <;> simp_all [unknownKind?, Json.isScalar]

/-! ## The document of a schema -/

theorem withKind_tagged (kind : Kind) (fields : List (String × Json)) :
    withKind (tagged kind fields) = tagged kind fields := by
  rw [tagged, withKind, List.lookup_cons_self, if_pos (by rfl)]

theorem checkTag_tagged (kind : Kind) (fields : List (String × Json)) :
    checkTag (tagged kind fields) = .ok () := by
  rw [tagged, checkTag]
  simp only [List.lookup_cons_self]

theorem unknownKind?_toJson (schema : Schema) : unknownKind? schema.toJson = none := by
  have hchecked := Declarations.selfChecked_of_validate schema.accepted
  have hentries := unknownKind?_encodeEntries fun entry hentry =>
    unknownKind?_encode (hchecked entry hentry)
  rw [toJson, root, encode]
  exact unknownKind?_tagged (List.forall_mem_singleton.mpr hentries)

/-- Entries that equal those of a schema node for node are accepted as they stand. -/
theorem exists_ofEntries_of_anonymous (schema : Schema) {entries : Declarations}
    (h : Structure.anonymousEntries entries = Structure.anonymousEntries schema.entries) :
    ∃ read, ofEntries entries = .ok read ∧ read.entries = entries := by
  have hnodup : (Keyed.names entries).Nodup := by
    rw [← Structure.names_anonymousEntries, h, Structure.names_anonymousEntries]
    exact schema.nodup_names
  have hself : Declarations.entered entries = entries := Keyed.ofList_eq_self hnodup
  have hvalid : (Declarations.entered entries).validate = .ok () := by
    rw [hself, ← Declarations.validate_anonymous, h, Declarations.validate_anonymous]
    exact schema.accepted
  obtain ⟨read, hread⟩ := exists_ofEntries_iff.mpr hvalid
  exact ⟨read, hread, (entries_of_ofEntries hread).trans hself⟩

/-- The document of a schema is read as a schema that equals it node for node, and whose document is
the same. -/
theorem ofJson_toJson (schema : Schema) :
    ∃ read, ofJson schema.toJson = .ok read ∧
      read.root.anonymous = schema.root.anonymous ∧ read.toJson = schema.toJson := by
  have hanonymous := (Structure.anonymousEntries_number 1 _).trans
    (Structure.anonymousEntries_anonymousEntries schema.entries)
  obtain ⟨read, hread, hentries⟩ := exists_ofEntries_of_anonymous schema hanonymous
  have hroot : read.root.anonymous = schema.root.anonymous := by
    rw [root, hentries, Structure.anonymous, hanonymous]
    rfl
  refine ⟨read, ?_, hroot, Structure.encode_inj.mpr hroot⟩
  obtain ⟨fields, hfields⟩ := schema.root.encode_eq_tagged
  -- the kind comes first in the document, so nothing is added to it and its tag is in order
  have hdecoded : (do checkTag schema.toJson; Structure.decode schema.toJson) =
      .ok schema.root.anonymous := by
    rw [toJson, hfields, checkTag_tagged, ← hfields]
    exact Structure.decode_encode schema.root
  have hkind : withKind schema.toJson = schema.toJson := by
    rw [toJson, hfields, withKind_tagged]
  simp only [ofJson, unknownKind?_toJson, hkind, hdecoded]
  exact hread

end Schema

end PathQuery
