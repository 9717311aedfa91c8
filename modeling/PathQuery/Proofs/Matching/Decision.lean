import PathQuery.Proofs.Matching.Conclusion
import PathQuery.Proofs.Structure.Parts

/-!
# What matching decides

The members of a union that a value conforms to are the candidates that matching finds, in
declaration order. Where no chain of wrappers and members goes on for ever, matching tells with enough
reach for every value whether it conforms; a union is left for the only candidate, and otherwise
with an error that tells whether there was none, or names all of them
(`Matching.decides_conformance`).
-/

set_option autoImplicit false

open Filter

namespace PathQuery

namespace Traced

variable {ε α : Type}

open Classical in
/-- Filtering by a test that decides something keeps the items of which it holds. -/
theorem result_filterM {test : α → Traced ε Bool} {holds : α → Prop} {items : List α}
    (h : ∀ item ∈ items, ∃ passes, (test item).result = .ok passes ∧ (passes = true ↔ holds item)) :
    (filterM test items).result = .ok (items.filter fun item => holds item) := by
  induction items with
  | nil => rfl
  | cons first rest ih =>
    obtain ⟨⟨passes, hpasses, hiff⟩, hrest⟩ := List.forall_mem_cons.mp h
    simp only [filterM, result_bind, result_pure, hpasses, ih hrest, Except.ok_bind,
      List.filter_cons, ← hiff, decide_eq_true_eq]

end Traced

/-! ## Members of a union -/

namespace Node

variable {node member : Node} {value : Json}

/-- Members at different positions are different nodes. -/
theorem nodup_members (node : Node) : node.members.Nodup := by
  refine List.Nodup.filterMap ?_ List.nodup_range
  intro index index' member h h'
  have htrace {index : Nat} (h : member ∈ (node.child? (.member index)).toOption) :
      member.trace = .member index :: node.trace := by
    cases hchild : node.child? (.member index) with
    | error e =>
      rw [hchild] at h
      cases h
    | ok found =>
      rw [hchild] at h
      cases h
      exact trace_of_child? hchild
  cases (htrace h).symm.trans (htrace h')
  rfl

open Classical in
/-- The members that a value conforms to, in declaration order. -/
noncomputable def conforming (union : Node) (value : Json) : List Node :=
  union.members.filter fun member => member.Conforms value

theorem mem_conforming {union : Node} :
    member ∈ union.conforming value ↔ union.MemberOf member ∧ member.Conforms value := by
  simp only [conforming, List.mem_filter, mem_members, decide_eq_true_eq]

theorem nodup_conforming (union : Node) (value : Json) : (union.conforming value).Nodup :=
  union.nodup_members.filter _

/-- The value conforms to this member of a union, and to no other. -/
def ConformsOnly (union : Node) (value : Json) (member : Node) : Prop :=
  (union.MemberOf member ∧ member.Conforms value) ∧
    ∀ other, union.MemberOf other → other.Conforms value → other = member

theorem conformsOnly_iff {union : Node} :
    union.ConformsOnly value member ↔ union.conforming value = [member] := by
  unfold ConformsOnly
  constructor
  · rintro ⟨hmember, honly⟩
    rw [← mem_conforming] at hmember
    refine List.perm_singleton.mp ((List.perm_ext_iff_of_nodup (union.nodup_conforming value)
      (List.nodup_singleton member)).mpr fun other => ?_)
    rw [List.mem_singleton]
    constructor
    · intro hother
      obtain ⟨hother, hconforms⟩ := mem_conforming.mp hother
      exact honly other hother hconforms
    · rintro rfl
      exact hmember
  · intro h
    have hmem (other : Node) : union.MemberOf other ∧ other.Conforms value ↔ other = member := by
      rw [← mem_conforming, h, List.mem_singleton]
    exact ⟨(hmem member).mpr rfl, fun other hother hconforms => (hmem other).mp ⟨hother, hconforms⟩⟩

theorem conforming_eq_nil_iff {union : Node} :
    union.conforming value = [] ↔ ∀ member, union.MemberOf member → ¬ member.Conforms value := by
  simp only [List.eq_nil_iff_forall_not_mem, mem_conforming, not_and]

end Node

/-! ## The choice of a member -/

namespace Matching

variable {union member : Node} {value : Json} {candidates : List Node}

/-- The keys of the candidates, as an error names them. -/
def named (candidates : List Node) : String :=
  ", ".intercalate (candidates.map fun member => s!"'{member.key}'")

theorem choose_eq_ok_iff : choose union value candidates = .ok member ↔ candidates = [member] := by
  match candidates with
  | [] => simp [choose]
  | [only] => simp [choose]
  | first :: second :: rest => simp [choose]

theorem choose_eq_noUnionMatch_iff :
    choose union value candidates = .error (.noUnionMatch union.key value.text) ↔
      candidates = [] := by
  match candidates with
  | [] => simp [choose]
  | [only] => simp [choose]
  | first :: second :: rest => simp [choose]

theorem choose_of_several {first second : Node} (hfirst : first ∈ candidates)
    (hsecond : second ∈ candidates) (hne : first ≠ second) :
    choose union value candidates =
      .error (.ambiguousUnionMatch union.key value.text (named candidates)) := by
  match candidates with
  | [] => cases hfirst
  | [only] =>
    rw [List.mem_singleton] at hfirst hsecond
    exact absurd (hfirst.trans hsecond.symm) hne
  | _ :: _ :: _ => rfl

/-- Without a hint, the members that the value conforms to decide. -/
theorem result_selectMember {reach : Nat}
    (h : ∀ member, union.MemberOf member → ∃ passes,
      (fits reach member value).result = .ok passes ∧ (passes = true ↔ member.Conforms value)) :
    (selectMember reach union (some value) none).result =
      choose union value (union.conforming value) := by
  have hfilter : (Traced.filterM (fun member => fits reach member value) union.members).result =
      .ok (union.conforming value) :=
    Traced.result_filterM fun member hmember => h member (Node.mem_members.mp hmember)
  simp only [selectMember, Traced.result_bind, Traced.result_ofExcept, Node.result_allMembers,
    Except.ok_bind, hfilter]

/-- With enough reach, matching answers and decides conformance. -/
theorem eventually_decides_fits {start node : Node} (hscoped : start.Scoped)
    (hanchored : ∀ node, Node.Below start node → node.Anchored) (hnode : Node.Below start node)
    (value : Json) :
    ∀ᶠ reach in atTop, ∃ passes,
      (fits reach node value).result = .ok passes ∧ (passes = true ↔ node.Conforms value) := by
  refine (eventually_concludes_fits hscoped hanchored hnode value).mono fun reach hconcludes => ?_
  have hmeets := meets_fits_iff (hscoped.below hnode) reach value
  cases hresult : (fits reach node value).result with
  | ok passes => exact ⟨passes, rfl, hmeets.good_of hresult⟩
  | error error => exact absurd (hmeets.fine_of hresult) (hconcludes.fine_of hresult)

/-- Below an entry without parameters, if no chain goes on for ever there: matching decides
conformance, and a value picks the only member of a union that it conforms to. -/
theorem decides_conformance {graph : Graph} {entry : String} {start node : Node}
    (hstart : graph.root.child? (.entry entry) = .ok start) (hplain : start.shape.parameters = [])
    (hchains : ∀ chain : Nat → Node, Node.Below start (chain 0) →
      ∃ n, ¬ (chain n).HandsOn (chain (n + 1)))
    (hnode : Node.Below start node) (value : Json) :
    ∃ enough, ∀ reach, enough ≤ reach →
      (∃ passes, (fits reach node value).result = .ok passes ∧
        (passes = true ↔ node.Conforms value)) ∧
      (node.kind = .union →
        (∀ member, (selectMember reach node (some value) none).result = .ok member ↔
          node.ConformsOnly value member) ∧
        ((selectMember reach node (some value) none).result =
            .error (.noUnionMatch node.key value.text) ↔
          ∀ member, node.MemberOf member → ¬ member.Conforms value) ∧
        ∀ first second, node.MemberOf first → first.Conforms value → node.MemberOf second →
          second.Conforms value → first ≠ second →
          (selectMember reach node (some value) none).result =
            .error (.ambiguousUnionMatch node.key value.text (named (node.conforming value)))) := by
  have hscoped := Node.scoped_of_entry hstart hplain
  have hanchored (node : Node) (hnode : Node.Below start node) : node.Anchored := by
    refine Node.anchored_of_chains fun chain hchain => hchains chain ?_
    rw [hchain]
    exact hnode
  have hmembers : ∀ᶠ reach in atTop, ∀ member ∈ node.members, ∃ passes,
      (fits reach member value).result = .ok passes ∧ (passes = true ↔ member.Conforms value) :=
    eventually_forall_mem fun member hmember =>
      eventually_decides_fits hscoped hanchored ((Node.mem_members.mp hmember).below hnode) value
  obtain ⟨enough, henough⟩ := eventually_atTop.mp
    ((eventually_decides_fits hscoped hanchored hnode value).and hmembers)
  refine ⟨enough, fun reach hreach => ⟨(henough reach hreach).1, fun _ => ?_⟩⟩
  rw [result_selectMember fun member hmember =>
    (henough reach hreach).2 member (Node.mem_members.mpr hmember)]
  refine ⟨fun member => ?_, ?_, fun first second hfirst hfirst' hsecond hsecond' hne => ?_⟩
  · rw [choose_eq_ok_iff, Node.conformsOnly_iff]
  · rw [choose_eq_noUnionMatch_iff, Node.conforming_eq_nil_iff]
  · exact choose_of_several (Node.mem_conforming.mpr ⟨hfirst, hfirst'⟩)
      (Node.mem_conforming.mpr ⟨hsecond, hsecond'⟩) hne

end Matching

/-! ## Chains that end -/

namespace Node

variable {start node next : Node}

theorem HandsOn.below (h : node.HandsOn next) (hnode : Below start node) : Below start next := by
  rcases h with ⟨step, _, hchild⟩ | hmember
  · exact .step hnode hchild
  · exact hmember.below hnode

/-- No chain goes on for ever where a measure of the nodes falls along it. -/
theorem chains_end_of_measure (measure : Node → Nat)
    (hfalls : ∀ node next, Below start node → node.HandsOn next → measure next < measure node)
    (chain : Nat → Node) (h : Below start (chain 0)) : ∃ n, ¬ (chain n).HandsOn (chain (n + 1)) := by
  by_contra hall
  have hnext (n : Nat) : (chain n).HandsOn (chain (n + 1)) :=
    Classical.not_not.mp fun hnot => hall ⟨n, hnot⟩
  have hbelow (n : Nat) : Below start (chain n) := by
    induction n with
    | zero => exact h
    | succ n ih => exact (hnext n).below ih
  have hbound (n : Nat) : measure (chain n) + n ≤ measure (chain 0) := by
    induction n with
    | zero => exact Nat.le_refl _
    | succ n ih =>
      have hstep := hfalls _ _ (hbelow n) (hnext n)
      omega
  have hlast := hbound (measure (chain 0) + 1)
  omega

end Node

/-- Nothing in a structure refers to a declaration or to a type parameter. -/
def Structure.RefFree (s : Structure) : Prop :=
  ∀ part ∈ s.parts, part.kind ≠ .ref

instance (s : Structure) : Decidable s.RefFree :=
  inferInstanceAs (Decidable (∀ part ∈ s.parts, part.kind ≠ .ref))

theorem Structure.RefFree.inside {shape part : Structure} (h : shape.RefFree)
    (hpart : part ∈ shape.inside) : part.RefFree := by
  intro inner hinner
  rcases List.mem_cons.mp hinner with rfl | hinner
  · exact h _ (List.mem_cons_of_mem _ hpart)
  · exact h _ (List.mem_cons_of_mem _ (inside_trans hinner hpart))

theorem kept_refFree (declarations : Declarations) :
    Kept declarations fun shape _ => shape.RefFree where
  entry h found := h.inside (Structure.mem_inside_of_entry found)
  component h found _ := h.inside (Structure.mem_inside_of_component? found)
  argument h _ _ := absurd rfl (h _ (Structure.mem_parts_self _))
  target h _ := absurd rfl (h _ (Structure.mem_parts_self _))

namespace Node

/-- Below a structure without references a value is handed on to smaller and smaller structures. -/
theorem chains_end_of_refFree {start : Node} (hfree : start.shape.RefFree)
    (hbindings : start.bindings = []) (chain : Nat → Node) (h : Below start (chain 0)) :
    ∃ n, ¬ (chain n).HandsOn (chain (n + 1)) := by
  have hstart : start.site.closure.Hereditary fun shape _ => shape.RefFree := by
    refine .mk hfree ?_
    change ∀ entry ∈ start.bindings, _
    rw [hbindings]
    exact nofun
  refine chains_end_of_measure (fun node => sizeOf node.shape) ?_ chain h
  intro node next hnode hnext
  have hhere : node.shape.RefFree := ((kept_refFree _).below hstart hnode).here_of
  have hsmaller {step : Step} {part : Structure} (hpart : node.shape.component? step = some part)
      (hstep : node.child? step = .ok next) : next.shape = part := by
    cases (child?_of_component? hpart).symm.trans hstep
    have hpartFree := hhere.inside (Structure.mem_inside_of_component? hpart)
    cases part with
    | ref => exact absurd rfl (hpartFree _ (Structure.mem_parts_self _))
    | _ => rfl
  rcases hnext with ⟨step, hstep, hchild⟩ | ⟨index, hchild⟩
  · generalize hs : node.shape = shape at *
    cases shape with
    | ref => exact absurd rfl (hhere _ (Structure.mem_parts_self _))
    | typeAlias | nullable =>
      cases hstep
      rw [hsmaller rfl hchild]
      simp only [Structure.typeAlias.sizeOf_spec, Structure.nullable.sizeOf_spec]
      omega
    | _ => cases hstep
  · obtain ⟨label, members, hs, hindex⟩ := shape_of_member hchild
    have hpart : node.shape.component? (.member index) = some members[index] := by
      rw [hs]
      exact List.getElem?_eq_getElem hindex
    have hmember := List.sizeOf_lt_of_mem (List.getElem_mem hindex)
    rw [hsmaller hpart hchild, hs, Structure.union.sizeOf_spec]
    omega

end Node

/-! ## A badge -/

namespace Badge

def text : Structure := .primitive ⟨7, "Word.body.inner"⟩ .string

def optionalText : Structure := .nullable ⟨6, "Word.body"⟩ text

def word : Structure := .typeAlias ⟨5, "Word"⟩ "Word" [] optionalText

def number : Structure := .primitive ⟨4, "Badge.body.2"⟩ .number

def newest : Structure := .literal ⟨3, "Badge.body.1"⟩ (.string "new")

def wordReference : Structure := .ref ⟨2, "Badge.body.0"⟩ "Word" []

def choice : Structure := .union ⟨1, "Badge.body"⟩ [wordReference, newest, number]

/-- A badge is a word or null, the word "new", or a number. -/
def badge : Structure := .typeAlias ⟨0, "Badge"⟩ "Badge" [] choice

def graph : Graph := ⟨0, ⟨[("Badge", badge), ("Word", word)], by decide, by rfl⟩⟩

def entry : Node := .child graph.root (.entry "Badge") (.declared badge [])

def union : Node := .child entry .body (.nested [] choice)

def words : Node := .child union (.member 0) (.nested [] wordReference)

def newestNode : Node := .child union (.member 1) (.nested [] newest)

def numbers : Node := .child union (.member 2) (.nested [] number)

/-- The structures below the entry. -/
inductive Part : Structure → Prop where
  | badge : Part badge
  | choice : Part choice
  | wordReference : Part wordReference
  | newest : Part newest
  | number : Part number
  | word : Part word
  | optionalText : Part optionalText
  | text : Part text

/-- The structures are numbered on the way down. -/
def height (shape : Structure) : Nat := 8 - shape.identity?.getD 0

theorem part_of_component {shape part : Structure} {step : Step} (h : Part shape)
    (hpart : shape.component? step = some part) : Part part ∧ height part < height shape := by
  have hpart := Structure.component_of_component? hpart
  cases h with
  | badge =>
    cases hpart with
    | body => exact ⟨.choice, by decide⟩
  | choice =>
    cases hpart with
    | member found =>
      have hmember := List.mem_of_getElem? found
      simp only [List.mem_cons, List.not_mem_nil, or_false] at hmember
      rcases hmember with rfl | rfl | rfl
      · exact ⟨.wordReference, by decide⟩
      · exact ⟨.newest, by decide⟩
      · exact ⟨.number, by decide⟩
  | word =>
    cases hpart with
    | body => exact ⟨.optionalText, by decide⟩
  | optionalText =>
    cases hpart with
    | inner => exact ⟨.text, by decide⟩
  | wordReference | newest | number | text => cases hpart

theorem part_of_applied {label : Label} {target : String} {typeArguments : List Structure}
    {declaration : Structure} (h : Part (.ref label target typeArguments))
    (hfound : graph.schema.entries.applied label target typeArguments.length = .ok declaration) :
    Part declaration ∧ height declaration < height (.ref label target typeArguments) := by
  cases h
  cases hfound
  exact ⟨.word, by decide⟩

theorem kept_part : Kept graph.schema.entries fun shape bindings => Part shape ∧ bindings = [] where
  entry h _ := by cases h.1
  component h hpart _ := ⟨(part_of_component h.1 hpart).1, h.2⟩
  argument h hargument _ := by
    cases h.1
    cases hargument
  target h hfound := by
    refine ⟨(part_of_applied h.1 hfound).1, ?_⟩
    cases h.1
    cases hfound
    rfl

theorem part_of_below {node : Node} (h : Node.Below entry node) :
    Part node.shape ∧ node.bindings = [] := by
  have hkept : Kept entry.graph.schema.entries fun shape bindings => Part shape ∧ bindings = [] :=
    kept_part
  exact (hkept.below (.mk ⟨.badge, rfl⟩ nofun) h).here_of

theorem height_of_child {node next : Node} {step : Step} (h : Node.Below entry node)
    (hstep : node.child? step = .ok next) : height next.shape < height node.shape := by
  obtain ⟨hpart, hbindings⟩ := part_of_below h
  obtain ⟨site, hsite, rfl⟩ := Node.child?_eq_ok_iff.mp hstep
  rw [h.graph_eq] at hsite
  change Part node.site.shape at hpart
  change node.site.bindings = [] at hbindings
  change height site.shape < height node.site.shape
  cases Site.transition_of_child hsite with
  | entry shape =>
    rw [shape] at hpart
    cases hpart
  | @component _ part found =>
    have hshape : (Site.nested [] part).shape = part := by cases part <;> rfl
    rw [hbindings, hshape]
    exact (part_of_component hpart found).2
  | target shape found =>
    rw [shape] at hpart ⊢
    exact (part_of_applied hpart found).2

theorem chains_end (chain : Nat → Node) (h : Node.Below entry (chain 0)) :
    ∃ n, ¬ (chain n).HandsOn (chain (n + 1)) := by
  refine Node.chains_end_of_measure (fun node => height node.shape) ?_ chain h
  rintro node next hnode (⟨step, _, hstep⟩ | ⟨index, hstep⟩)
  · exact height_of_child hnode hstep
  · exact height_of_child hnode hstep

theorem below_union : Node.Below entry union :=
  @Node.Below.step entry entry union .body .start rfl

theorem members_union : union.members = [words, newestNode, numbers] := rfl

theorem memberOf_union {member : Node} (h : union.MemberOf member) :
    member = words ∨ member = newestNode ∨ member = numbers := by
  rw [← Node.mem_members, members_union] at h
  simpa using h

theorem scoped_union : union.Scoped :=
  (Node.scoped_of_entry (rfl : graph.root.child? (.entry "Badge") = .ok entry) rfl).below below_union

/-- A member to which a value does not conform, as matching finds out. -/
theorem not_conforms {member : Node} (h : union.MemberOf member) {value : Json}
    (hfits : (Matching.fits 5 member value).result = .ok false) : ¬ member.Conforms value := by
  obtain ⟨index, hindex⟩ := h
  have hiff := (Matching.meets_fits_iff (scoped_union.child hindex) 5 value).good_of hfits
  exact fun hconforms => Bool.false_ne_true (hiff.mpr hconforms)

theorem conforms_words {value : Json} (h : value = .null ∨ ∃ word, value = .string word) :
    words.Conforms value := by
  refine .wrapped ⟨.target, rfl, rfl⟩ (.wrapped ⟨.body, rfl, rfl⟩ ?_)
  rcases h with rfl | ⟨word, rfl⟩
  · exact .null rfl rfl
  · exact .wrapped ⟨.inner, rfl, rfl⟩ (.primitive rfl rfl)

theorem hasWords : union.MemberOf words := ⟨0, rfl⟩

theorem hasNewest : union.MemberOf newestNode := ⟨1, rfl⟩

theorem hasNumbers : union.MemberOf numbers := ⟨2, rfl⟩

theorem conforms_newest : newestNode.Conforms (.string "new") := .literal rfl rfl

/-- The word "new" is a member of its own. -/
theorem conforming_new : union.conforming (.string "new") = [words, newestNode] := by
  have hwords : words.Conforms (.string "new") := conforms_words (.inr ⟨"new", rfl⟩)
  have hnumbers : ¬ numbers.Conforms (.string "new") := not_conforms hasNumbers rfl
  simp [Node.conforming, members_union, hwords, conforms_newest, hnumbers]

theorem selectMember_badge :
    ∃ enough, ∀ reach, enough ≤ reach →
      (Matching.selectMember reach union (some .null) none).result = .ok words ∧
      (Matching.selectMember reach union (some (.bool true)) none).result =
        .error (.noUnionMatch "Badge.body" "true") ∧
      (Matching.selectMember reach union (some (.string "new")) none).result =
        .error (.ambiguousUnionMatch "Badge.body" "\"new\"" "'Badge.body.0', 'Badge.body.1'") := by
  have hstart : graph.root.child? (.entry "Badge") = .ok entry := rfl
  obtain ⟨enough, hnull⟩ := Matching.decides_conformance hstart rfl chains_end below_union .null
  obtain ⟨enough', hbool⟩ :=
    Matching.decides_conformance hstart rfl chains_end below_union (.bool true)
  obtain ⟨enough'', hnew⟩ :=
    Matching.decides_conformance hstart rfl chains_end below_union (.string "new")
  refine ⟨max enough (max enough' enough''), fun reach hreach => ⟨?_, ?_, ?_⟩⟩
  · refine (((hnull reach (by omega)).2 rfl).1 words).mpr ⟨⟨hasWords, conforms_words (.inl rfl)⟩, ?_⟩
    intro member hmember hconforms
    rcases memberOf_union hmember with rfl | rfl | rfl
    · rfl
    · exact absurd hconforms (not_conforms hasNewest rfl)
    · exact absurd hconforms (not_conforms hasNumbers rfl)
  · refine ((hbool reach (by omega)).2 rfl).2.1.mpr fun member hmember => ?_
    rcases memberOf_union hmember with rfl | rfl | rfl
    · exact not_conforms hasWords rfl
    · exact not_conforms hasNewest rfl
    · exact not_conforms hasNumbers rfl
  · have hambiguous := ((hnew reach (by omega)).2 rfl).2.2 words newestNode hasWords
      (conforms_words (.inr ⟨"new", rfl⟩)) hasNewest conforms_newest nofun
    rw [conforming_new] at hambiguous
    exact hambiguous

end Badge

end PathQuery
