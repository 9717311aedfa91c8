import PathQuery.Proofs.Matching.Conformance
import PathQuery.Proofs.Query.Resolution

/-!
# The query language

Which queries are accepted at a node, told by the structure there (`Language.Accepts`): every level
of nesting uses up one of the levels that are allowed. Compilation accepts exactly these, and what
it refuses is the fault of the query (`Setting.decides_compile`).
-/

set_option autoImplicit false

namespace PathQuery

/-- What can be asked of a list before the query goes on at its items. -/
inductive Instruction.Excerpts (maxSize : Option Nat) : Json → Prop where
  | index {value : Number} {index : Nat} (unsigned : value.unsigned? = some index) :
      Excerpts maxSize (.number value)
  | all {head : Json} (kind : kind? head = some "all") : Excerpts maxSize head
  | first {head : Json} (kind : kind? head = some "first") : Excerpts maxSize head
  | paginate {head : Json} {number size : Nat} (kind : kind? head = some "paginate")
      (page : (head.member? "page").bind Json.unsigned? = some number) (one_le_page : 1 ≤ number)
      (pageSize : (head.member? "pageSize").bind Json.unsigned? = some size)
      (one_le_size : 1 ≤ size) (bound : ∀ max, maxSize = some max → size ≤ max) :
      Excerpts maxSize head

/-- The first member of a union that goes by a name. -/
def Node.NamedMember (union : Node) (name : String) (member : Node) : Prop :=
  ∃ index, union.child? (.member index) = .ok member ∧ member.shape.memberName? = some name ∧
    ∀ earlier < index, ∀ other, union.child? (.member earlier) = .ok other →
      other.shape.memberName? ≠ some name

/-- What is fixed for all queries of an engine. -/
structure Language where
  graph : Graph
  entry : String
  maxPageSize : Option Nat

namespace Language

variable (language : Language) (onward : Node → List Json → Prop) (node : Node)

/-- The query starts with an instruction of this kind. -/
def Leads (kind : String) (query : List Json) : Prop :=
  ∃ head rest, query = head :: rest ∧ Instruction.kind? head = some kind

def AcceptsAnew (query : List Json) : Prop :=
  ∃ (head : Json) (path : List Json) (more? : Option (List Json)),
    query = [head] ∧ head.member? "path" = some (.array path) ∧
    head.member? "query" = more?.map .array ∧ onward language.graph.root (path ++ more?.getD [])

def AcceptsEntry (query : List Json) : Prop :=
  ∃ child rest, query = .string language.entry :: rest ∧
    node.child? (.entry language.entry) = .ok child ∧ onward child rest

def AcceptsProperty (query : List Json) : Prop :=
  ∃ name child rest, query = .string name :: rest ∧ node.child? (.field name) = .ok child ∧
    onward child rest

def AcceptsField (field : String × Json) : Prop :=
  ∃ child inner, field.2 = .array inner ∧ node.child? (.field field.1) = .ok child ∧
    onward child inner

def AcceptsSelect (query : List Json) : Prop :=
  ∃ head requested, query = [head] ∧ Instruction.kind? head = some "select" ∧
    head.member? "fields" = some (.object requested) ∧
    ∀ field ∈ requested, AcceptsField onward node field

def AcceptsList (query : List Json) : Prop :=
  ∃ item rest, (query = [] ∧ rest = [] ∨
      ∃ head, query = head :: rest ∧ Instruction.Excerpts language.maxPageSize head) ∧
    node.child? .items = .ok item ∧ onward item rest

def AcceptsCall (query : List Json) : Prop :=
  ∃ head rest returned, query = head :: rest ∧ Instruction.kind? head = some "call" ∧
    node.Callable ((head.member? "args").getD (.object [])) ∧
    node.child? .returns = .ok returned ∧ onward returned rest

def AcceptsMember (query : List Json) : Prop :=
  ∃ head rest name member, query = head :: rest ∧ Instruction.kind? head = some "as" ∧
    (head.member? "type").bind Json.string? = some name ∧ node.NamedMember name member ∧
    onward member rest

def AcceptsByStructure (query : List Json) : Prop :=
  match node.shape with
  | .root _ => language.AcceptsEntry onward node query
  | .ref .. | .typeAlias .. | .nullable .. => ∃ next, node.Wraps next ∧ onward next query
  | .object .. => query = [] ∨ AcceptsProperty onward node query ∨ AcceptsSelect onward node query
  | .array .. => language.AcceptsList onward node query
  | .function .. => AcceptsCall onward node query
  | .union .. => ¬ Leads "as" query ∨ AcceptsMember onward node query
  | .primitive .. | .literal .. => query = []
  | .arguments .. => False

/-- Anywhere but at wrappers a query may start again at the root. -/
def StartsAnew (query : List Json) : Prop :=
  node.shape.isWrapper = false ∧ Leads "path" query

/-- What is accepted at a node, where `onward` tells what is accepted one level deeper. -/
def AcceptsAt (query : List Json) : Prop :=
  StartsAnew node query ∧ language.AcceptsAnew onward query ∨
    ¬ StartsAnew node query ∧ language.AcceptsByStructure onward node query

/-- The queries that are accepted at a node within so many levels. -/
def Accepts : Nat → Node → List Json → Prop
  | 0, _, _ => False
  | levels + 1, node, query => language.AcceptsAt (Accepts levels) node query

end Language

/-! ## Heads of queries -/

theorem Operator.decides_requireLast {gaveUp : Error → Prop} (node : Node) (head : Json) (rest : List Json) :
    Decides gaveUp (requireLast node head rest) (rest = []) := by
  cases rest with
  | nil => exact rfl
  | cons next more => exact .error rfl nofun

namespace Instruction

variable {gaveUp : Error → Prop} {maxSize : Option Nat} {head : Json}

theorem decides_instructions? (key : String) (instruction : Json) (field : String) :
    Decides gaveUp (instructions? key instruction field)
      (∃ found : Option (List Json), instruction.member? field = found.map .array) := by
  unfold instructions?
  split
  · next h => exact ⟨none, h⟩
  · next items h => exact ⟨some items, h⟩
  · next value hne h =>
    refine .error rfl ?_
    rintro ⟨found, hfound⟩
    cases found with
    | none => cases h.symm.trans hfound
    | some items =>
      cases h.symm.trans hfound
      exact hne items rfl

theorem member?_of_instructions? {key field : String} {instruction : Json}
    {found : Option (List Json)} (h : instructions? key instruction field = .ok found) :
    instruction.member? field = found.map .array := by
  unfold instructions? at h
  split at h
  · next hmember =>
    cases h
    exact hmember
  · next hmember =>
    cases h
    exact hmember
  · cases h

theorem positive_eq_ok_iff {key field : String} {instruction : Json} {n : Nat} :
    positive key instruction field = .ok n ↔
      (instruction.member? field).bind Json.unsigned? = some n ∧ 1 ≤ n := by
  unfold positive
  split
  · next found hfound =>
    rw [hfound, Except.ok.injEq, Option.some.injEq]
    constructor
    · rintro rfl
      exact ⟨rfl, Nat.succ_pos found⟩
    · exact And.left
  · next hne =>
    refine iff_of_false nofun ?_
    rintro ⟨hfound, hpos⟩
    obtain ⟨n, rfl⟩ : ∃ m, n = m + 1 := ⟨n - 1, by omega⟩
    exact hne n hfound

theorem decides_positive (key : String) (instruction : Json) (field : String) :
    Decides gaveUp (positive key instruction field) (∃ n, positive key instruction field = .ok n) := by
  unfold positive
  split
  · exact ⟨_, rfl⟩
  · exact .error rfl nofun

theorem excerpts_number_iff {value : Number} :
    Excerpts maxSize (.number value) ↔ ∃ index, value.unsigned? = some index := by
  constructor
  · intro h
    cases h with
    | index unsigned => exact ⟨_, unsigned⟩
    | all kind | first kind | paginate kind => cases kind
  · rintro ⟨index, unsigned⟩
    exact .index unsigned

/-- The size of a page that starts a query is within its bound. -/
theorem Excerpts.page (h : Excerpts maxSize head) (hkind : kind? head = some "paginate")
    (key : String) :
    ∃ number size, positive key head "page" = .ok number ∧
      positive key head "pageSize" = .ok size ∧ ∀ max, maxSize = some max → size ≤ max := by
  cases h with
  | index => cases hkind
  | all kind | first kind => exact absurd (kind.symm.trans hkind) (by simp)
  | paginate _ page one_le_page pageSize one_le_size bound =>
    exact ⟨_, _, positive_eq_ok_iff.mpr ⟨page, one_le_page⟩,
      positive_eq_ok_iff.mpr ⟨pageSize, one_le_size⟩, bound⟩

end Instruction

namespace Setting

open Instruction (Excerpts)

variable {gaveUp : Error → Prop}

theorem decides_readPage (maxSize : Option Nat) (node : Node) {head : Json}
    (hkind : Instruction.kind? head = some "paginate") :
    Decides gaveUp (Excerpt.readPage maxSize node head) (Excerpts maxSize head) := by
  unfold Excerpt.readPage
  refine (Instruction.decides_positive node.key head "page").bind (fun h => ?_)
    fun number hnumber _ => ?_
  · obtain ⟨number, _, hnumber, _⟩ := h.page hkind node.key
    exact ⟨number, hnumber⟩
  refine (Instruction.decides_positive node.key head "pageSize").bind (fun h => ?_)
    fun size hsize _ => ?_
  · obtain ⟨_, size, _, hsize, _⟩ := h.page hkind node.key
    exact ⟨size, hsize⟩
  have accepted (bound : ∀ max, maxSize = some max → size ≤ max) : Excerpts maxSize head :=
    .paginate hkind (Instruction.positive_eq_ok_iff.mp hnumber).1
      (Instruction.positive_eq_ok_iff.mp hnumber).2 (Instruction.positive_eq_ok_iff.mp hsize).1
      (Instruction.positive_eq_ok_iff.mp hsize).2 bound
  cases maxSize with
  | none => exact accepted nofun
  | some max =>
    by_cases hmax : max < size
    · simp only [if_pos hmax]
      refine Decides.error rfl fun h => ?_
      obtain ⟨_, other, _, hother, hbound⟩ := h.page hkind node.key
      cases hsize.symm.trans hother
      exact Nat.not_lt.mpr (hbound max rfl) hmax
    · simp only [if_neg hmax]
      refine accepted fun bound hbound => ?_
      cases hbound
      exact Nat.not_lt.mp hmax

theorem decides_excerptAt (maxSize : Option Nat) (node : Node) (head : Json) :
    Decides gaveUp (excerptAt maxSize node head) (Excerpts maxSize head) := by
  unfold excerptAt
  split
  · next value =>
    rw [Instruction.excerpts_number_iff]
    split
    · next index hindex => exact ⟨index, hindex⟩
    · next hnone =>
      refine .error rfl ?_
      rintro ⟨index, hindex⟩
      cases hnone.symm.trans hindex
  · next hne =>
    split
    · next hkind => exact .all hkind
    · next hkind => exact .first hkind
    · next hkind => exact decides_readPage maxSize node hkind
    · next hall hfirst hpaginate =>
      refine .error rfl fun h => ?_
      cases h with
      | index => exact hne _ rfl
      | all kind => exact hall kind
      | first kind => exact hfirst kind
      | paginate kind => exact hpaginate kind

end Setting

/-! ## Members by name -/

namespace Node

variable {union a b : Node} {name : String}

/-- The members at positions in a row are tried one after another. -/
theorem meets_memberAmong (start count : Nat)
    (hmembers : ∀ index, start ≤ index → index < start + count →
      ∃ member, union.child? (.member index) = .ok member) :
    (union.memberAmong name (List.range' start count)).result.Meets
      (fun member => ∃ index, union.child? (.member index) = .ok member ∧
        member.shape.memberName? = some name ∧ ∀ earlier, start ≤ earlier → earlier < index →
          ∀ other, union.child? (.member earlier) = .ok other →
            other.shape.memberName? ≠ some name)
      (fun _ => ∀ index, start ≤ index → index < start + count → ∀ other,
        union.child? (.member index) = .ok other → other.shape.memberName? ≠ some name) := by
  induction count generalizing start with
  | zero => exact fun index hle hlt => absurd hlt (Nat.not_lt.mpr hle)
  | succ count ih =>
    obtain ⟨first, hfirst⟩ := hmembers start (Nat.le_refl _) (by omega)
    rw [List.range'_succ, memberAmong, Traced.result_bind, result_step, hfirst, Except.ok_bind]
    by_cases hname : first.shape.memberName? = some name
    · rw [if_pos hname]
      refine ⟨start, hfirst, hname, fun earlier hle hlt => ?_⟩
      exact absurd hlt (Nat.not_lt.mpr hle)
    · rw [if_neg hname]
      have hfirst_ne (index : Nat) (hindex : index = start) (other : Node)
          (hother : union.child? (.member index) = .ok other) :
          other.shape.memberName? ≠ some name := by
        subst hindex
        cases hfirst.symm.trans hother
        exact hname
      rw [Except.Meets.iff]
      have hrest := Except.Meets.iff.mp (ih (start + 1) fun index hle hlt =>
        hmembers index (by omega) (by omega))
      constructor
      · intro member hmember
        obtain ⟨index, hindex, hnamed, hearlier⟩ := hrest.1 member hmember
        refine ⟨index, hindex, hnamed, fun earlier hle hlt other hother => ?_⟩
        rcases Nat.eq_or_lt_of_le hle with heq | hle
        · exact hfirst_ne earlier heq.symm other hother
        · exact hearlier earlier hle hlt other hother
      · intro error herror index hle hlt other hother
        rcases Nat.eq_or_lt_of_le hle with heq | hle
        · exact hfirst_ne index heq.symm other hother
        · exact hrest.2 error herror index hle (by omega) other hother

theorem meets_memberNamed {label : Label} {members : List Structure}
    (hshape : union.shape = .union label members) (name : String) :
    (union.memberNamed name).result.Meets (union.NamedMember name)
      (fun _ => ¬ ∃ member, union.NamedMember name member) := by
  have hcount : union.memberCount = members.length := by rw [memberCount, hshape]
  unfold memberNamed
  rw [List.range_eq_range', hcount, Except.Meets.iff]
  have hall := Except.Meets.iff.mp <| @meets_memberAmong union name 0 members.length
    fun index _ hlt => ⟨_, child?_of_component? (by
      rw [hshape, Structure.component?, List.getElem?_eq_getElem (by omega)])⟩
  constructor
  · intro member hmember
    obtain ⟨index, hindex, hnamed, hearlier⟩ := hall.1 member hmember
    exact ⟨index, hindex, hnamed, fun earlier => hearlier earlier (Nat.zero_le _)⟩
  · rintro error herror ⟨member, index, hindex, hnamed, _⟩
    obtain ⟨_, _, hshape', hlt⟩ := shape_of_member hindex
    cases hshape.symm.trans hshape'
    exact hall.2 error herror index (Nat.zero_le _) (by omega) member hindex hnamed

theorem NamedMember.unique (ha : union.NamedMember name a) (hb : union.NamedMember name b) :
    a = b := by
  obtain ⟨i, hi, hnamed, hearlier⟩ := ha
  obtain ⟨j, hj, hnamed', hearlier'⟩ := hb
  rcases Nat.lt_trichotomy i j with hlt | rfl | hlt
  · exact absurd hnamed (hearlier' i hlt a hi)
  · exact Except.ok.inj (hi.symm.trans hj)
  · exact absurd hnamed' (hearlier j hlt b hj)

end Node

/-- A hint selects the member that goes by it. -/
theorem Matching.meets_selectMember_hint {gaveUp : Error → Prop} {union : Node} {label : Label} {members : List Structure}
    (hshape : union.shape = .union label members) (reach : Nat) (value : Option Json)
    (hint : String) :
    (selectMember reach union value (some hint)).result.Meets (union.NamedMember hint)
      (Error.Refuses gaveUp (∃ member, union.NamedMember hint member)) := by
  have hnamed := Except.Meets.iff.mp (Node.meets_memberNamed hshape hint)
  simp only [selectMember, Traced.catchError]
  split
  · next member hmember =>
    rw [hmember]
    exact hnamed.1 member hmember
  · next error herror => exact Or.inr ⟨rfl, hnamed.2 error herror⟩

/-! ## Demands -/

/-- What is fixed for all queries of a setting. -/
def Setting.language (setting : Setting) : Language :=
  ⟨setting.graph, setting.entry, setting.execution.maxPageSize⟩

/-- What comes next is accepted there. -/
def Demand.GoesOn (setting : Setting) (onward : Node → List Json → Prop) (node : Node) :
    Demand → Prop
  | whole | matched _ => True
  | through _ child rest | property _ _ child rest | items _ child rest => onward child rest
  | members _ _ requested => ∀ field ∈ requested, Language.AcceptsField onward node field
  | anew query => onward setting.graph.root query

namespace Setting

variable (setting : Setting) (gaveUp : Error → Prop) (onward : Node → List Json → Prop)
  (node : Node)

/-- Reads the demand of a query that is accepted, and of those only that fail later on. -/
def Reads (demand? : Except Error Demand) (accepted : Prop) : Prop :=
  demand?.Meets (fun demand => demand.GoesOn setting onward node ↔ accepted)
    (Error.Refuses gaveUp accepted)

/-- Of the call that a query starts with, it is decided whether it may be made. -/
def DecidesCalls (query : List Json) : Prop :=
  ∀ head rest, query = head :: rest → node.kind = .function →
    Decides gaveUp (Matching.checkCall setting.reach node
      ((head.member? "args").getD (.object []))).result
      (node.Callable ((head.member? "args").getD (.object [])))

variable {setting gaveUp onward node}

/-- At the root and in scope a step fails only for the client. -/
theorem Covers.decides_child? (h : setting.Covers node) (step : Step) :
    Decides gaveUp (node.child? step) (∃ child, node.child? step = .ok child) := by
  rcases h with rfl | h
  · cases hstep : setting.graph.root.child? step with
    | ok child => exact ⟨child, rfl⟩
    | error e =>
      refine .error (Site.category_of_child ?_ (Node.child?_eq_error_iff.mp hstep)) ?_
      · intro label target typeArguments hs
        cases hs
      · rintro ⟨_, hchild⟩
        cases hchild
  · exact h.decides_child? step

theorem Covers.reads_step (h : setting.Covers node) {step : Step} {make : Node → Demand}
    {rest : List Json} {accepted : Prop}
    (hmake : ∀ child, (make child).GoesOn setting onward node = onward child rest)
    (haccepted : accepted ↔ ∃ child, node.child? step = .ok child ∧ onward child rest) :
    setting.Reads gaveUp onward node ((node.child? step).map make) accepted := by
  cases hstep : node.child? step with
  | ok child =>
    change (make child).GoesOn setting onward node ↔ accepted
    rw [hmake, haccepted, hstep]
    simp
  | error e =>
    refine ((h.decides_child? step).fine_of hstep).of_imp fun h => ?_
    obtain ⟨child, hchild, _⟩ := haccepted.mp h
    exact ⟨child, hchild⟩

theorem meets_absoluteQuery_iff (head : Json) (rest : List Json) :
    (absoluteQuery node head rest).Meets
      (fun query => onward setting.graph.root query ↔
        setting.language.AcceptsAnew onward (head :: rest))
      (Error.Refuses gaveUp (setting.language.AcceptsAnew onward (head :: rest))) := by
  unfold absoluteQuery
  refine (Operator.decides_requireLast node head rest).bind ?_ fun _ _ hrest => ?_
  · rintro ⟨_, _, _, heq, _⟩
    cases heq
    rfl
  refine (Instruction.decides_instructions? node.key head "path").bind ?_ fun path? hpath _ => ?_
  · rintro ⟨_, path, _, heq, hpath, _⟩
    cases heq
    exact ⟨some path, hpath⟩
  have hpath := Instruction.member?_of_instructions? hpath
  cases path? with
  | none =>
    refine Error.Refuses.client rfl ?_
    rintro ⟨_, _, _, heq, hpath', _⟩
    cases heq
    cases hpath.symm.trans hpath'
  | some path =>
    refine (Instruction.decides_instructions? node.key head "query").bind ?_ fun more? hmore _ => ?_
    · rintro ⟨_, _, more?, heq, _, hmore, _⟩
      cases heq
      exact ⟨more?, hmore⟩
    have hmore := Instruction.member?_of_instructions? hmore
    constructor
    · intro h
      exact ⟨head, path, more?, by rw [hrest], hpath, hmore, h⟩
    · rintro ⟨_, _, other?, heq, hpath', hmore', h⟩
      cases heq
      cases hpath.symm.trans hpath'
      have : more? = other? := by
        cases more? <;> cases other? <;> cases hmore.symm.trans hmore' <;> rfl
      rwa [this]

theorem Covers.reads_demandAtRoot (h : setting.Covers node) (query : List Json) :
    setting.Reads gaveUp onward node (setting.demandAtRoot node query)
      (setting.language.AcceptsEntry onward node query) := by
  cases query with
  | nil =>
    refine Error.Refuses.client rfl ?_
    rintro ⟨_, _, heq, _⟩
    cases heq
  | cons head rest =>
    simp only [demandAtRoot]
    split
    · next hentry =>
      have hhead : head = .string setting.entry := by
        cases head <;> cases hentry
        rfl
      refine h.reads_step (fun _ => rfl) ⟨?_, ?_⟩
      · rintro ⟨child, _, heq, hchild, h⟩
        cases heq
        exact ⟨child, hchild, h⟩
      · rintro ⟨child, hchild, h⟩
        exact ⟨child, rest, by rw [hhead]; rfl, hchild, h⟩
    · next hne =>
      refine Error.Refuses.client rfl ?_
      rintro ⟨_, _, heq, _⟩
      cases heq
      exact hne rfl

theorem Covers.reads_demandAtObject (h : setting.Covers node)
    (properties : List (Property Structure)) (query : List Json) :
    setting.Reads gaveUp onward node (demandAtObject node properties query)
      (query = [] ∨ Language.AcceptsProperty onward node query ∨
        Language.AcceptsSelect onward node query) := by
  cases query with
  | nil => exact iff_of_true trivial (.inl rfl)
  | cons head rest =>
    simp only [demandAtObject]
    split
    · next hkind =>
      have hselect : (head :: rest = [] ∨ Language.AcceptsProperty onward node (head :: rest) ∨
          Language.AcceptsSelect onward node (head :: rest)) ↔
            Language.AcceptsSelect onward node (head :: rest) := by
        refine ⟨?_, fun h => .inr (.inr h)⟩
        rintro (h | ⟨_, _, _, heq, _⟩ | h)
        · cases h
        · cases heq
          cases hkind
        · exact h
      rw [hselect]
      refine (Operator.decides_requireLast node head rest).bind ?_ fun _ _ hrest => ?_
      · rintro ⟨_, _, heq, _⟩
        cases heq
        rfl
      split
      · next requested hfields =>
        constructor
        · intro h
          exact ⟨head, requested, by rw [hrest], hkind, hfields, h⟩
        · rintro ⟨_, _, heq, _, hfields', h⟩
          cases heq
          cases hfields.symm.trans hfields'
          exact h
      · next hne =>
        refine Error.Refuses.client rfl ?_
        rintro ⟨_, _, heq, _, hfields, _⟩
        cases heq
        exact hne _ hfields
    · next hkind =>
      split
      · next name =>
        refine h.reads_step (fun _ => rfl) ⟨?_, ?_⟩
        · rintro (h | ⟨_, child, _, heq, hchild, h⟩ | ⟨_, _, heq, hkind', _⟩)
          · cases h
          · cases heq
            exact ⟨child, hchild, h⟩
          · cases heq
            exact absurd hkind' hkind
        · rintro ⟨child, hchild, h⟩
          exact .inr (.inl ⟨name, child, rest, rfl, hchild, h⟩)
      · next hne =>
        refine Error.Refuses.client rfl ?_
        rintro (h | ⟨_, _, _, heq, _⟩ | ⟨_, _, heq, hkind', _⟩)
        · cases h
        · cases heq
          exact hne _ rfl
        · cases heq
          exact hkind hkind'

theorem Covers.reads_demandAtList (h : setting.Covers node) (query : List Json) :
    setting.Reads gaveUp onward node (setting.demandAtList node query)
      (setting.language.AcceptsList onward node query) := by
  cases query with
  | nil =>
    refine h.reads_step (fun _ => rfl) ⟨?_, ?_⟩
    · rintro ⟨item, _, ⟨_, rfl⟩ | ⟨_, heq, _⟩, hitem, h⟩
      · exact ⟨item, hitem, h⟩
      · cases heq
    · rintro ⟨item, hitem, h⟩
      exact ⟨item, [], .inl ⟨rfl, rfl⟩, hitem, h⟩
  | cons head rest =>
    refine (decides_excerptAt setting.execution.maxPageSize node head).bind ?_
      fun excerpt _ hexcerpt => ?_
    · rintro ⟨_, _, ⟨heq, _⟩ | ⟨_, heq, hexcerpt⟩, _, _⟩
      · cases heq
      · cases heq
        exact hexcerpt
    · simp only [bind_pure_comp]
      refine h.reads_step (fun _ => rfl) ⟨?_, ?_⟩
      · rintro ⟨item, _, ⟨heq, _⟩ | ⟨_, heq, _⟩, hitem, h⟩
        · cases heq
        · cases heq
          exact ⟨item, hitem, h⟩
      · rintro ⟨item, hitem, h⟩
        exact ⟨item, rest, .inr ⟨head, rfl, hexcerpt⟩, hitem, h⟩

theorem Covers.reads_demandAtFunction (h : setting.Covers node) (hkind : node.kind = .function)
    {query : List Json} (hcalls : setting.DecidesCalls gaveUp node query) :
    setting.Reads gaveUp onward node (setting.demandAtFunction node query)
      (Language.AcceptsCall onward node query) := by
  cases query with
  | nil =>
    refine Error.Refuses.client rfl ?_
    rintro ⟨_, _, _, heq, _⟩
    cases heq
  | cons head rest =>
    simp only [demandAtFunction]
    split
    · next hcall =>
      refine (hcalls head rest rfl hkind).bind ?_ fun _ _ hcallable => ?_
      · rintro ⟨_, _, _, heq, _, hcallable, _⟩
        cases heq
        exact hcallable
      · simp only [bind_pure_comp]
        refine h.reads_step (fun _ => rfl) ⟨?_, ?_⟩
        · rintro ⟨_, _, returned, heq, _, _, hreturned, h⟩
          cases heq
          exact ⟨returned, hreturned, h⟩
        · rintro ⟨returned, hreturned, h⟩
          exact ⟨head, rest, returned, rfl, hcall, hcallable, hreturned, h⟩
    · next hne =>
      refine Error.Refuses.client rfl ?_
      rintro ⟨_, _, _, heq, hcall, _⟩
      cases heq
      exact hne hcall

theorem reads_demandAtUnion {label : Label} {members : List Structure}
    (hshape : node.shape = .union label members) (query : List Json) :
    setting.Reads gaveUp onward node (setting.demandAtUnion node query)
      (¬ Language.Leads "as" query ∨ Language.AcceptsMember onward node query) := by
  cases query with
  | nil =>
    refine iff_of_true trivial (.inl ?_)
    rintro ⟨_, _, heq, _⟩
    cases heq
  | cons head rest =>
    simp only [demandAtUnion]
    split
    · next hkind =>
      have hleads : Language.Leads "as" (head :: rest) := ⟨head, rest, rfl, hkind⟩
      rw [or_iff_right (not_not_intro hleads)]
      split
      · next hint hhint =>
        have hselect := @Matching.meets_selectMember_hint gaveUp _ _ _ hshape setting.reach none hint
        rw [Except.Meets.iff] at hselect
        cases hmember : (Matching.selectMember setting.reach node none (some hint)).result with
        | ok member =>
          have hnamed := hselect.1 member hmember
          refine ⟨fun h => ⟨head, rest, hint, member, rfl, hkind, hhint, hnamed, h⟩, ?_⟩
          rintro ⟨_, _, _, other, heq, _, hhint', hother, h⟩
          cases heq
          cases hhint.symm.trans hhint'
          rwa [hnamed.unique hother]
        | error e =>
          refine (hselect.2 e hmember).of_imp ?_
          rintro ⟨_, _, _, other, heq, _, hhint', hother, _⟩
          cases heq
          cases hhint.symm.trans hhint'
          exact ⟨other, hother⟩
      · next hnone =>
        refine Error.Refuses.client rfl ?_
        rintro ⟨_, _, _, _, heq, _, hhint, _⟩
        cases heq
        cases hnone.symm.trans hhint
    · next hne =>
      refine iff_of_true trivial (.inl ?_)
      rintro ⟨_, _, heq, hkind⟩
      cases heq
      exact hne hkind

theorem Covers.scoped (h : setting.Covers node) (hkind : node.kind ≠ .root) : node.Scoped := by
  rcases h with rfl | h
  · exact absurd rfl hkind
  · exact h

theorem Covers.reads_demandByStructure (h : setting.Covers node) {query : List Json}
    (hcalls : setting.DecidesCalls gaveUp node query) :
    setting.Reads gaveUp onward node (setting.demandByStructure node query)
      (setting.language.AcceptsByStructure onward node query) := by
  have wrapped {step : Step} (hstep : node.shape.wrapping? = some step) :
      setting.Reads gaveUp onward node
        ((node.child? step).map fun child => Demand.through none child query)
        (∃ next, node.Wraps next ∧ onward next query) := by
    refine h.reads_step (fun _ => rfl) ⟨?_, ?_⟩
    · rintro ⟨next, ⟨other, hother, hnext⟩, haccepted⟩
      cases hstep.symm.trans hother
      exact ⟨next, hnext, haccepted⟩
    · rintro ⟨next, hnext, haccepted⟩
      exact ⟨next, ⟨step, hstep, hnext⟩, haccepted⟩
  unfold demandByStructure Language.AcceptsByStructure
  cases hs : node.shape with
  | root => exact h.reads_demandAtRoot query
  | ref | typeAlias | nullable => exact wrapped (by rw [hs]; rfl)
  | object _ _ _ properties => exact h.reads_demandAtObject properties query
  | array => exact h.reads_demandAtList query
  | function =>
    exact h.reads_demandAtFunction (congrArg Structure.kind hs) hcalls
  | union => exact reads_demandAtUnion hs query
  | primitive | literal =>
    cases query with
    | nil => exact iff_of_true trivial rfl
    | cons head rest => exact Error.Refuses.client rfl nofun
  | arguments => exact Error.Refuses.client rfl id

theorem Covers.decidesCalls (h : setting.Covers node) {query : List Json} :
    setting.DecidesCalls Error.Endless node query := by
  intro head rest _ hkind
  exact Matching.decides_checkCall (h.scoped (by rw [hkind]; exact nofun)) hkind setting.reach _

/-- The demand of a query tells whether it is accepted. -/
theorem Covers.reads_demand (h : setting.Covers node) {query : List Json}
    (hcalls : setting.DecidesCalls gaveUp node query) :
    setting.Reads gaveUp onward node (setting.demand node query)
      (setting.language.AcceptsAt onward node query) := by
  by_cases hanew : Language.StartsAnew node query
  · have haccepted : setting.language.AcceptsAt onward node query ↔
        setting.language.AcceptsAnew onward query := by
      simp [Language.AcceptsAt, hanew]
    obtain ⟨hwrapper, head, rest, rfl, hkind⟩ := hanew
    rw [haccepted, demand, if_pos ⟨hwrapper, hkind⟩]
    exact (meets_absoluteQuery_iff head rest).map fun _ _ hquery => hquery
  · have haccepted : setting.language.AcceptsAt onward node query ↔
        setting.language.AcceptsByStructure onward node query := by
      simp [Language.AcceptsAt, hanew]
    have hdemand : setting.demand node query = setting.demandByStructure node query := by
      apply setting.demand_of_not_path
      by_cases hwrapper : node.shape.isWrapper = true
      · exact .inl hwrapper
      · refine .inr fun head rest hquery hkind => hanew ?_
        exact ⟨(Bool.not_eq_true _).mp hwrapper, head, rest, hquery, hkind⟩
    rw [haccepted, hdemand]
    exact h.reads_demandByStructure hcalls

/-! ## Compilation -/

section

variable {compile : Bool → Node → List Json → Walk Middleware} {optional : Bool}

theorem decides_compileFields (h : node.Scoped)
    (hcompile : ∀ optional node query, setting.Covers node →
      Decides gaveUp (compile optional node query).result (onward node query)) (head : Json)
    (properties : List (Property Structure)) (requested : List (String × Json)) :
    Decides gaveUp (Operator.compileFields ⟨setting, optional, compile⟩ node head properties requested).result
      (∀ field ∈ requested, Language.AcceptsField onward node field) := by
  induction requested with
  | nil => exact nofun
  | cons field rest ih =>
    obtain ⟨name, value⟩ := field
    rw [Operator.result_compileFields_cons, List.forall_mem_cons]
    cases value with
    | array query =>
      have hrequested : Decides gaveUp (node.requested head properties (name, .array query))
          (∃ child, node.child? (.field name) = .ok child) :=
        (h.decides_child? (.field name)).map _
      refine hrequested.bind ?_ fun part hpart _ => ?_
      · rintro ⟨⟨child, _, _, hchild, _⟩, _⟩
        exact ⟨child, hchild⟩
      obtain ⟨child, hchild, rfl⟩ := Except.map_eq_ok_iff.mp hpart
      refine (hcompile _ child query (.inr (h.child hchild))).bind ?_ fun _ _ haccepted => ?_
      · rintro ⟨⟨_, _, heq, hother, haccepted⟩, _⟩
        cases heq
        cases hchild.symm.trans hother
        exact haccepted
      · refine (ih.map _).congr (and_iff_right ?_).symm
        exact ⟨child, query, rfl, hchild, haccepted⟩
    | _ =>
      refine Error.Refuses.client rfl ?_
      rintro ⟨⟨_, _, heq, _⟩, _⟩
      cases heq

/-- What is assembled for a demand succeeds if it goes on with what is compiled one level deeper. -/
theorem decides_assemble (hcompile : ∀ optional node query, setting.Covers node →
      Decides gaveUp (compile optional node query).result (onward node query)) {demand : Demand}
    (hscope : demand.InScope node) :
    Decides gaveUp (demand.assemble ⟨setting, optional, compile⟩ node)
      (demand.GoesOn setting onward node) := by
  cases demand with
  | whole | matched => exact trivial
  | through _ child rest | property _ _ child rest | items _ child rest =>
    exact (hcompile _ child rest (.inr hscope)).map _
  | members head properties requested =>
    exact (decides_compileFields hscope hcompile head properties requested).map _
  | anew query => exact (hcompile false setting.graph.root query (.inl rfl)).map _

/-- Compilation accepts exactly the query language. -/
theorem decides_compile (hplain : setting.PlainEntry) (levels : Nat) (optional : Bool) (node : Node)
    (query : List Json) (h : setting.Covers node) :
    Decides Error.Endless (setting.compile Operator.builtin levels optional node query).result
      (setting.language.Accepts levels node query) := by
  induction levels generalizing optional node query with
  | zero => exact Decides.error rfl id
  | succ levels ih =>
    rw [compile_succ]
    have hreads : setting.Reads Error.Endless (setting.language.Accepts levels) node (setting.demand node query)
        (setting.language.Accepts (levels + 1) node query) :=
      h.reads_demand h.decidesCalls
    have hscope := setting.meets_demand hplain h query
    cases hdemand : setting.demand node query with
    | ok demand =>
      exact (decides_assemble ih (hscope.good_of hdemand)).congr (hreads.good_of hdemand)
    | error e => exact hreads.fine_of hdemand

end

end Setting

end PathQuery
