import Mathlib.Data.List.Forall2
import PathQuery.Middleware.Basic
import PathQuery.Proofs.Outcome

/-!
# Computations that take turns

Of computations that go on together all succeed, or the one that fails first makes all of them fail
(`Traced.result_together_eq_error_iff`). Whatever is noted was noted by one of them. What is noted
between waits may be renamed or left out before or after (`Traced.filterTrail_together`), and where
nothing waits the computations go on one after another (`Traced.together_of_still`).
-/

set_option autoImplicit false

namespace PathQuery

namespace Traced

variable {ε δ α β γ : Type}

@[simp] theorem trail_behind (entry : ε) (x : Traced ε α) :
    (x.behind entry).trail = entry :: x.trail := rfl

@[simp] theorem result_behind (entry : ε) (x : Traced ε α) : (x.behind entry).result = x.result := rfl

theorem trail_map (f : α → β) (x : Traced ε α) : (f <$> x).trail = x.trail := by
  obtain ⟨trail, result⟩ := x
  cases result with
  | ok a => exact List.append_nil trail
  | error error => rfl

theorem trail_prefix_bind (x : Traced ε α) (f : α → Traced ε β) : x.trail <+: (x >>= f).trail := by
  cases h : x.result with
  | ok a => exact ⟨_, by rw [bind_of_ok h]⟩
  | error error => exact ⟨[], by rw [bind_of_error h, List.append_nil]⟩

theorem mem_trail_bind {entry : ε} {x : Traced ε α} {f : α → Traced ε β}
    (h : entry ∈ (x >>= f).trail) :
    entry ∈ x.trail ∨ ∃ a, x.result = .ok a ∧ entry ∈ (f a).trail := by
  cases hx : x.result with
  | ok a =>
    rw [bind_of_ok hx] at h
    exact (List.mem_append.mp h).imp_right fun h => ⟨a, rfl, h⟩
  | error error =>
    rw [bind_of_error hx] at h
    exact .inl h

/-- The entries come first. -/
def behindAll (entries : List ε) (x : Traced ε α) : Traced ε α := ⟨entries ++ x.trail, x.result⟩

theorem behindAll_bind (entries : List ε) (x : Traced ε α) (f : α → Traced ε β) :
    x.behindAll entries >>= f = (x >>= f).behindAll entries := by
  obtain ⟨trail, result⟩ := x
  cases result with
  | ok a => exact Traced.ext (List.append_assoc _ _ _) rfl
  | error error => rfl

variable {waits : ε → Bool}

/-! ## Turns -/

section

variable {x : Except Error α} {y : Except Error β} {entry other : ε}

theorem takeTurns_done (a : α) (others : List ε) :
    takeTurns waits (.ok a) y [] others = (a, ·) <$> (⟨others, y⟩ : Traced ε β) := by
  cases y with
  | ok b => exact Traced.ext (List.append_nil others).symm rfl
  | error error => rfl

theorem takeTurns_note (h : waits entry = false) (rest others : List ε) :
    takeTurns waits x y (entry :: rest) others = (takeTurns waits x y rest others).behind entry := by
  rw [takeTurns, if_neg (Bool.not_eq_true _ ▸ h)]

theorem takeTurns_alone {b : β} (h : waits entry = true) (rest : List ε) :
    takeTurns waits x (.ok b) (entry :: rest) [] =
      (takeTurns waits x (.ok b) rest []).behind entry := by
  rw [takeTurns, if_pos h, meanwhile]

theorem takeTurns_stopped {error : Error} (h : waits entry = true) (rest : List ε) :
    takeTurns waits x (.error error : Except Error β) (entry :: rest) [] = fail error := by
  rw [takeTurns, if_pos h, meanwhile]

theorem takeTurns_wait (h : waits entry = true) (hother : waits other = true)
    (rest others : List ε) :
    takeTurns waits x y (entry :: rest) (other :: others) =
      (takeTurns waits x y rest others).behind entry := by
  rw [takeTurns, if_pos h, meanwhile, if_pos hother]

theorem takeTurns_catchUp (h : waits entry = true) (hother : waits other = false)
    (rest others : List ε) :
    takeTurns waits x y (entry :: rest) (other :: others) =
      (takeTurns waits x y (entry :: rest) others).behind other := by
  rw [takeTurns, takeTurns, if_pos h, if_pos h, meanwhile, if_neg (Bool.not_eq_true _ ▸ hother)]

end

theorem takeTurns_append {x : Except Error α} {y : Except Error β} {entries : List ε}
    (h : ∀ entry ∈ entries, waits entry = false) (rest others : List ε) :
    takeTurns waits x y (entries ++ rest) others =
      (takeTurns waits x y rest others).behindAll entries := by
  induction entries with
  | nil => rfl
  | cons entry entries ih =>
    obtain ⟨hentry, hentries⟩ := List.forall_mem_cons.mp h
    rw [List.cons_append, takeTurns_note hentry, ih hentries]
    rfl

theorem meanwhile_append {wait : ε} {goOn : List ε → Traced ε γ} {y : Except Error β}
    {entries : List ε} (h : ∀ entry ∈ entries, waits entry = false) (others : List ε) :
    meanwhile waits wait goOn y (entries ++ others) =
      (meanwhile waits wait goOn y others).behindAll entries := by
  induction entries with
  | nil => rfl
  | cons entry entries ih =>
    obtain ⟨hentry, hentries⟩ := List.forall_mem_cons.mp h
    rw [List.cons_append, meanwhile, if_neg (Bool.not_eq_true _ ▸ hentry), ih hentries]
    rfl

theorem behind_bind (entry : ε) (x : Traced ε α) (f : α → Traced ε β) :
    x.behind entry >>= f = (x >>= f).behind entry :=
  behindAll_bind [entry] x f

theorem behind_map (entry : ε) (f : α → β) (x : Traced ε α) :
    f <$> x.behind entry = (f <$> x).behind entry := by
  rw [map_eq_pure_bind, map_eq_pure_bind, behind_bind]

/-- All of them wait at first. -/
theorem together_behind {entry : ε} (h : waits entry = true) {computations : List (Traced ε α)}
    (hne : computations ≠ []) :
    together waits (computations.map (behind entry)) = (together waits computations).behind entry := by
  induction computations with
  | nil => exact absurd rfl hne
  | cons first rest ih =>
    rw [List.map_cons, together, together, ← behind_map]
    refine congrArg (_ <$> ·) ?_
    cases rest with
    | nil => exact takeTurns_alone h first.trail
    | cons second rest =>
      rw [ih nofun]
      exact takeTurns_wait h h first.trail _

/-- Two trails are gone through in turns: the first up to its next wait, then the second up to its own,
and then both wait. -/
theorem turns_induction (waits : ε → Bool) {motive : List ε → List ε → Prop}
    (done : ∀ others, motive [] others)
    (note : ∀ entry rest others, waits entry = false → motive rest others →
      motive (entry :: rest) others)
    (alone : ∀ entry rest, waits entry = true → motive rest [] → motive (entry :: rest) [])
    (wait : ∀ entry rest other others, waits entry = true → waits other = true →
      motive rest others → motive (entry :: rest) (other :: others))
    (catchUp : ∀ entry rest other others, waits entry = true → waits other = false →
      motive (entry :: rest) others → motive (entry :: rest) (other :: others))
    (trail others : List ε) : motive trail others := by
  induction trail generalizing others with
  | nil => exact done others
  | cons entry rest ih =>
    cases hentry : waits entry with
    | false => exact note entry rest others hentry (ih others)
    | true =>
      induction others with
      | nil => exact alone entry rest hentry (ih [])
      | cons other others ihothers =>
        cases hother : waits other with
        | true => exact wait entry rest other others hentry hother (ih others)
        | false => exact catchUp entry rest other others hentry hother ihothers

/-! ## What is noted -/

theorem mem_trail_takeTurns {x : Except Error α} {y : Except Error β} {entry : ε}
    {trail others : List ε} (h : entry ∈ (takeTurns waits x y trail others).trail) :
    entry ∈ trail ∨ entry ∈ others := by
  induction trail, others using turns_induction waits with
  | done others =>
    cases x with
    | ok a => exact .inr h
    | error error => cases h
  | note first rest others hfirst ih =>
    rw [takeTurns_note hfirst] at h
    rcases List.mem_cons.mp h with rfl | h
    · exact .inl List.mem_cons_self
    · exact (ih h).imp_left (List.mem_cons_of_mem _)
  | alone first rest hfirst ih =>
    cases y with
    | ok b =>
      rw [takeTurns_alone hfirst] at h
      rcases List.mem_cons.mp h with rfl | h
      · exact .inl List.mem_cons_self
      · exact (ih h).imp_left (List.mem_cons_of_mem _)
    | error error =>
      rw [takeTurns_stopped hfirst] at h
      cases h
  | wait first rest other others hfirst hother ih =>
    rw [takeTurns_wait hfirst hother] at h
    rcases List.mem_cons.mp h with rfl | h
    · exact .inl List.mem_cons_self
    · exact (ih h).imp (List.mem_cons_of_mem _) (List.mem_cons_of_mem _)
  | catchUp first rest other others hfirst hother ih =>
    rw [takeTurns_catchUp hfirst hother] at h
    rcases List.mem_cons.mp h with rfl | h
    · exact .inr List.mem_cons_self
    · exact (ih h).imp_right (List.mem_cons_of_mem _)

/-- Whatever is noted was noted by one of them. -/
theorem mem_trail_together {entry : ε} {computations : List (Traced ε α)}
    (h : entry ∈ (together waits computations).trail) : ∃ x ∈ computations, entry ∈ x.trail := by
  induction computations with
  | nil => cases h
  | cons first rest ih =>
    rw [together, trail_map] at h
    rcases mem_trail_takeTurns h with h | h
    · exact ⟨first, List.mem_cons_self, h⟩
    · obtain ⟨x, hx, hentry⟩ := ih h
      exact ⟨x, List.mem_cons_of_mem _ hx, hentry⟩

/-! ## Without waits -/

theorem alongside_of_still {x : Traced ε α} (h : ∀ entry ∈ x.trail, waits entry = false)
    (y : Traced ε β) : x.alongside waits y = (do return (← x, ← y)) := by
  obtain ⟨trail, x⟩ := x
  obtain ⟨others, y⟩ := y
  change takeTurns waits x y trail others = _
  induction trail with
  | nil =>
    cases x with
    | error error => rfl
    | ok a =>
      cases y with
      | error error => rfl
      | ok b => exact congrArg (Traced.mk · _) (List.append_nil others).symm
  | cons first rest ih =>
    obtain ⟨hfirst, hrest⟩ := List.forall_mem_cons.mp h
    rw [takeTurns_note hfirst, ih hrest]
    cases x <;> rfl

/-- Where nothing waits, one goes on after another. -/
theorem together_of_still {computations : List (Traced ε α)}
    (h : ∀ x ∈ computations, ∀ entry ∈ x.trail, waits entry = false) :
    together waits computations = computations.mapM id := by
  induction computations with
  | nil => rfl
  | cons first rest ih =>
    obtain ⟨hfirst, hrest⟩ := List.forall_mem_cons.mp h
    rw [together, alongside_of_still hfirst, ih hrest, List.mapM_cons]
    simp only [map_bind, map_pure, id_eq]

/-! ## Other notes, other values -/

/-- Renames and leaves out entries. -/
def filterTrail (f : ε → Option δ) (x : Traced ε α) : Traced δ α := ⟨x.trail.filterMap f, x.result⟩

/-- Waits are kept as waits, and nothing else becomes one. -/
def KeepsWaits (waits : ε → Bool) (waits' : δ → Bool) (f : ε → Option δ) : Prop :=
  ∀ entry, (waits entry = true → ∃ entry', f entry = some entry' ∧ waits' entry' = true) ∧
    (waits entry = false → ∀ entry', f entry = some entry' → waits' entry' = false)

theorem filterTrail_behind (f : ε → Option δ) (entry : ε) (x : Traced ε α) :
    (x.behind entry).filterTrail f =
      match f entry with
      | some entry' => (x.filterTrail f).behind entry'
      | none => x.filterTrail f := by
  cases h : f entry with
  | none => simp [filterTrail, behind, h]
  | some entry' => simp [filterTrail, behind, h]

theorem filterTrail_alongside {waits' : δ → Bool} {f : ε → Option δ}
    (h : KeepsWaits waits waits' f) (x : Traced ε α) (y : Traced ε β) :
    (x.alongside waits y).filterTrail f =
      (x.filterTrail f).alongside waits' (y.filterTrail f) := by
  obtain ⟨trail, x⟩ := x
  obtain ⟨others, y⟩ := y
  change (takeTurns waits x y trail others).filterTrail f =
    takeTurns waits' x y (trail.filterMap f) (others.filterMap f)
  induction trail, others using turns_induction waits with
  | done others =>
    cases x <;> rfl
  | note entry rest others hentry ih =>
    rw [takeTurns_note hentry, filterTrail_behind, List.filterMap_cons, ih]
    cases hkept : f entry with
    | none => rfl
    | some entry' => exact (takeTurns_note ((h entry).2 hentry entry' hkept) _ _).symm
  | alone entry rest hentry ih =>
    obtain ⟨entry', hkept, hentry'⟩ := (h entry).1 hentry
    rw [List.filterMap_cons, hkept]
    cases y with
    | ok b =>
      rw [takeTurns_alone hentry, filterTrail_behind, hkept, ih]
      exact (takeTurns_alone hentry' _).symm
    | error error =>
      rw [takeTurns_stopped hentry]
      exact (takeTurns_stopped hentry' _).symm
  | wait entry rest other others hentry hother ih =>
    obtain ⟨entry', hkept, hentry'⟩ := (h entry).1 hentry
    obtain ⟨other', hkept', hother'⟩ := (h other).1 hother
    rw [takeTurns_wait hentry hother, filterTrail_behind, List.filterMap_cons, List.filterMap_cons,
      hkept, hkept', ih]
    exact (takeTurns_wait hentry' hother' _ _).symm
  | catchUp entry rest other others hentry hother ih =>
    obtain ⟨entry', hkept, hentry'⟩ := (h entry).1 hentry
    rw [takeTurns_catchUp hentry hother, filterTrail_behind, ih, List.filterMap_cons (a := other)]
    cases hkept' : f other with
    | none => rfl
    | some other' =>
      rw [List.filterMap_cons, hkept]
      exact (takeTurns_catchUp hentry' ((h other).2 hother other' hkept') _ _).symm

theorem filterTrail_bind (g : ε → Option δ) (x : Traced ε α) (f : α → Traced ε β) :
    (x >>= f).filterTrail g = x.filterTrail g >>= fun a => (f a).filterTrail g := by
  obtain ⟨trail, result⟩ := x
  cases result with
  | ok a => exact congrArg (Traced.mk · _) List.filterMap_append
  | error error => rfl

theorem filterTrail_map (g : ε → Option δ) (f : α → β) (x : Traced ε α) :
    (f <$> x).filterTrail g = f <$> x.filterTrail g := by
  rw [map_eq_pure_bind, map_eq_pure_bind, filterTrail_bind]
  rfl

theorem filterTrail_together {waits' : δ → Bool} {f : ε → Option δ}
    (h : KeepsWaits waits waits' f) (computations : List (Traced ε α)) :
    (together waits computations).filterTrail f =
      together waits' (computations.map (filterTrail f)) := by
  induction computations with
  | nil => rfl
  | cons first rest ih =>
    rw [together, filterTrail_map, filterTrail_alongside h, ih]
    rfl

/-! ## Computations that are cut short -/

/-- The first one is cut short, and then the second one begins like it, or they are the same. -/
def Until (cut : Error → Prop) (x x' : Traced ε α) : Prop :=
  (∃ error, x.result = .error error ∧ cut error ∧ x.trail <+: x'.trail) ∨ x' = x

namespace Until

variable {cut : Error → Prop}

theorem behind {x x' : Traced ε α} (h : Until cut x x') (entry : ε) :
    Until cut (x.behind entry) (x'.behind entry) := by
  obtain ⟨error, hresult, hcut, htrail⟩ | rfl := h
  · exact .inl ⟨error, hresult, hcut, List.cons_prefix_cons.mpr ⟨rfl, htrail⟩⟩
  · exact .inr rfl

theorem refl (x : Traced ε α) : Until cut x x := .inr rfl

theorem bind {x x' : Traced ε α} {f g : α → Traced ε β} (h : Until cut x x')
    (hfg : ∀ a, x.result = .ok a → Until cut (f a) (g a)) : Until cut (x >>= f) (x' >>= g) := by
  obtain ⟨error, hresult, hcut, htrail⟩ | rfl := h
  · refine .inl ⟨error, ?_, hcut, ?_⟩
    · rw [bind_of_error hresult]
    · rw [bind_of_error hresult]
      exact htrail.trans (trail_prefix_bind x' g)
  · cases hresult : x'.result with
    | error error =>
      rw [bind_of_error hresult, bind_of_error hresult]
      exact .inr rfl
    | ok a =>
      rw [bind_of_ok hresult, bind_of_ok hresult]
      obtain ⟨error, hnext, hcut, htrail⟩ | hnext := hfg a hresult
      · exact .inl ⟨error, hnext, hcut, (List.prefix_append_right_inj _).mpr htrail⟩
      · rw [hnext]
        exact .inr rfl

theorem map {x x' : Traced ε α} (h : Until cut x x') (f : α → β) :
    Until cut (f <$> x) (f <$> x') :=
  h.bind fun _ _ => .refl _

/-- What is noted first is noted first in the other one, too. -/
theorem exists_cons {entry : ε} {rest : List ε} {x : Except Error α} {x' : Traced ε α}
    (h : Until cut ⟨entry :: rest, x⟩ x') :
    ∃ rest', x'.trail = entry :: rest' ∧ Until cut ⟨rest, x⟩ ⟨rest', x'.result⟩ := by
  obtain ⟨error, hresult, hcut, more, htrail⟩ | rfl := h
  · exact ⟨rest ++ more, htrail.symm, .inl ⟨error, hresult, hcut, more, rfl⟩⟩
  · exact ⟨rest, rfl, .inr rfl⟩

theorem alongside {x x' : Traced ε α} {y y' : Traced ε β} (h : Until cut x x')
    (hy : Until cut y y') : Until cut (x.alongside waits y) (x'.alongside waits y') := by
  obtain ⟨trail, x⟩ := x
  obtain ⟨others, y⟩ := y
  induction trail, others using turns_induction waits generalizing x' y' with
  | done others =>
    obtain ⟨error, hresult, hcut, _⟩ | rfl := h
    · cases hresult
      exact .inl ⟨error, rfl, hcut, List.nil_prefix⟩
    · cases x with
      | error error => exact .inr rfl
      | ok a =>
        obtain ⟨error, hresult, hcut, htrail⟩ | rfl := hy
        · cases hresult
          exact .inl ⟨error, rfl, hcut, htrail⟩
        · exact .inr rfl
  | note entry rest others hentry ih =>
    obtain ⟨rest', htrail, h⟩ := h.exists_cons
    rw [Traced.alongside, Traced.alongside, htrail, takeTurns_note hentry, takeTurns_note hentry]
    exact (ih h hy).behind entry
  | alone entry rest hentry ih =>
    obtain ⟨rest', htrail, h⟩ := h.exists_cons
    rw [Traced.alongside, Traced.alongside, htrail]
    obtain ⟨error, hresult, hcut, _⟩ | rfl := hy
    · cases hresult
      rw [takeTurns_stopped hentry]
      exact .inl ⟨error, rfl, hcut, List.nil_prefix⟩
    · cases y with
      | error error =>
        rw [takeTurns_stopped hentry, takeTurns_stopped hentry]
        exact .inr rfl
      | ok b =>
        rw [takeTurns_alone hentry, takeTurns_alone hentry]
        exact (ih h (.inr rfl)).behind entry
  | wait entry rest other others hentry hother ih =>
    obtain ⟨rest', htrail, h⟩ := h.exists_cons
    obtain ⟨others', htrail', hy⟩ := hy.exists_cons
    rw [Traced.alongside, Traced.alongside, htrail, htrail', takeTurns_wait hentry hother,
      takeTurns_wait hentry hother]
    exact (ih h hy).behind entry
  | catchUp entry rest other others hentry hother ih =>
    obtain ⟨rest', htrail, _⟩ := h.exists_cons
    obtain ⟨others', htrail', hy⟩ := hy.exists_cons
    rw [Traced.alongside, Traced.alongside, htrail, htrail', takeTurns_catchUp hentry hother,
      takeTurns_catchUp hentry hother]
    have hturns := (ih h hy).behind other
    rwa [Traced.alongside, Traced.alongside, htrail] at hturns

theorem together {computations computations' : List (Traced ε α)}
    (h : List.Forall₂ (Until cut) computations computations') :
    Until cut (together waits computations) (together waits computations') := by
  induction h with
  | nil => exact .inr rfl
  | cons hfirst _ ih => exact (hfirst.alongside ih).map _

end Until

/-! ## What comes of them -/

/-- The waits up to the end. -/
def delay (waits : ε → Bool) (x : Traced ε α) : Nat := x.trail.countP waits

theorem delay_map (f : α → β) (x : Traced ε α) : (f <$> x).delay waits = x.delay waits := by
  rw [delay, delay, trail_map]

/-- A failure comes as late as the one that it comes from. -/
theorem delay_alongside_of_error {x : Traced ε α} {y : Traced ε β} {error : Error}
    (h : (x.alongside waits y).result = .error error) :
    (x.alongside waits y).delay waits = x.delay waits ∧ x.result = .error error ∧
        (∀ error', y.result = .error error' → x.delay waits ≤ y.delay waits) ∨
      (x.alongside waits y).delay waits = y.delay waits ∧ y.result = .error error ∧
        ∀ error', x.result = .error error' → y.delay waits < x.delay waits := by
  obtain ⟨trail, x⟩ := x
  obtain ⟨others, y⟩ := y
  change (takeTurns waits x y trail others).result = .error error at h
  change (takeTurns waits x y trail others).trail.countP waits = trail.countP waits ∧
        x = .error error ∧ (∀ error', y = .error error' → trail.countP waits ≤ others.countP waits) ∨
      (takeTurns waits x y trail others).trail.countP waits = others.countP waits ∧
        y = .error error ∧ ∀ error', x = .error error' → others.countP waits < trail.countP waits
  induction trail, others using turns_induction waits with
  | done others =>
    cases x with
    | ok a =>
      cases y with
      | ok b => cases h
      | error error' =>
        cases h
        exact .inr ⟨rfl, rfl, nofun⟩
    | error error' =>
      cases h
      exact .inl ⟨rfl, rfl, fun _ _ => Nat.zero_le _⟩
  | note entry rest others hentry ih =>
    rw [takeTurns_note hentry] at h ⊢
    have hcount : (entry :: rest).countP waits = rest.countP waits :=
      List.countP_cons_of_neg (by simp [hentry])
    rw [trail_behind, List.countP_cons_of_neg (by simp [hentry]), hcount]
    exact ih h
  | alone entry rest hentry ih =>
    rw [List.countP_cons_of_pos hentry]
    cases y with
    | error error' =>
      rw [takeTurns_stopped hentry] at h ⊢
      cases h
      exact .inr ⟨rfl, rfl, fun _ _ => Nat.succ_pos _⟩
    | ok b =>
      rw [takeTurns_alone hentry] at h ⊢
      rw [trail_behind, List.countP_cons_of_pos hentry]
      obtain ⟨hdelay, hx, _⟩ | ⟨_, hy, _⟩ := ih h
      · exact .inl ⟨congrArg (· + 1) hdelay, hx, nofun⟩
      · cases hy
  | wait entry rest other others hentry hother ih =>
    rw [takeTurns_wait hentry hother] at h ⊢
    rw [trail_behind, List.countP_cons_of_pos hentry, List.countP_cons_of_pos hentry,
      List.countP_cons_of_pos hother]
    simpa only [Nat.add_right_cancel_iff, Nat.add_le_add_iff_right, Nat.add_lt_add_iff_right]
      using ih h
  | catchUp entry rest other others hentry hother ih =>
    rw [takeTurns_catchUp hentry hother] at h ⊢
    have hcount : (other :: others).countP waits = others.countP waits :=
      List.countP_cons_of_neg (by simp [hother])
    rw [trail_behind, List.countP_cons_of_neg (a := other) (by simp [hother]), hcount]
    exact ih h

theorem result_alongside_eq_ok_iff {x : Traced ε α} {y : Traced ε β} {values : α × β} :
    (x.alongside waits y).result = .ok values ↔
      x.result = .ok values.1 ∧ y.result = .ok values.2 := by
  obtain ⟨trail, x⟩ := x
  obtain ⟨others, y⟩ := y
  change (takeTurns waits x y trail others).result = .ok values ↔ x = .ok values.1 ∧ y = .ok values.2
  induction trail, others using turns_induction waits with
  | done others =>
    obtain ⟨a, b⟩ := values
    cases x <;> cases y <;> simp [takeTurns, fail, Except.map]
  | note entry rest others hentry ih => rwa [takeTurns_note hentry]
  | alone entry rest hentry ih =>
    cases y with
    | ok b => rwa [takeTurns_alone hentry]
    | error error =>
      rw [takeTurns_stopped hentry]
      exact iff_of_false nofun fun h => nomatch h.2
  | wait entry rest other others hentry hother ih => rwa [takeTurns_wait hentry hother]
  | catchUp entry rest other others hentry hother ih => rwa [takeTurns_catchUp hentry hother]

/-- All values are there, in their order, if no computation fails. -/
theorem result_together_eq_ok_iff {computations : List (Traced ε α)} {values : List α} :
    (together waits computations).result = .ok values ↔
      computations.mapM result = .ok values := by
  induction computations generalizing values with
  | nil => rfl
  | cons first rest ih =>
    rw [together, result_map, Except.map_eq_ok_iff, Except.mapM_cons, Except.bind_eq_ok_iff]
    constructor
    · rintro ⟨⟨a, others⟩, h, rfl⟩
      obtain ⟨hfirst, hrest⟩ := result_alongside_eq_ok_iff.mp h
      exact ⟨a, hfirst, by rw [ih.mp hrest]; rfl⟩
    · rintro ⟨a, hfirst, h⟩
      obtain ⟨others, hrest, rfl⟩ := Except.map_eq_ok_iff.mp h
      exact ⟨(a, others), result_alongside_eq_ok_iff.mpr ⟨hfirst, ih.mpr hrest⟩, rfl⟩

/-- One of them fails with the error, before all others that fail: after fewer waits, or after as many
and earlier in the list. -/
def FailsFirst (waits : ε → Bool) (computations : List (Traced ε α)) (error : Error) : Prop :=
  ∃ before x after, computations = before ++ x :: after ∧ x.result = .error error ∧
    (∀ other ∈ before, ∀ error', other.result = .error error' →
      x.delay waits < other.delay waits) ∧
    ∀ other ∈ after, ∀ error', other.result = .error error' → x.delay waits ≤ other.delay waits

theorem failsFirst_of_result_together {computations : List (Traced ε α)} {error : Error}
    (h : (together waits computations).result = .error error) :
    ∃ before x after, computations = before ++ x :: after ∧ x.result = .error error ∧
      (together waits computations).delay waits = x.delay waits ∧
      (∀ other ∈ before, ∀ error', other.result = .error error' →
        x.delay waits < other.delay waits) ∧
      ∀ other ∈ after, ∀ error', other.result = .error error' →
        x.delay waits ≤ other.delay waits := by
  induction computations generalizing error with
  | nil => cases h
  | cons first rest ih =>
    rw [together, result_map, Except.map_eq_error_iff] at h
    rw [together, delay_map]
    obtain ⟨hdelay, hfirst, hrest⟩ | ⟨hdelay, hrest, hfirst⟩ := delay_alongside_of_error h
    · refine ⟨[], first, rest, rfl, hfirst, hdelay, nofun, fun other hother error' herror => ?_⟩
      cases htogether : (together waits rest).result with
      | ok values =>
        obtain ⟨_, hother⟩ := Except.exists_mapM_eq_ok_iff.mp
          ⟨values, result_together_eq_ok_iff.mp htogether⟩ other hother
        cases herror.symm.trans hother
      | error failure =>
        obtain ⟨before, x, after, rfl, hx, hleast, hbefore, hafter⟩ := ih htogether
        refine Nat.le_trans (hrest failure htogether) (hleast ▸ ?_)
        rcases List.mem_append.mp hother with hother | hother
        · exact Nat.le_of_lt (hbefore other hother error' herror)
        · rcases List.mem_cons.mp hother with rfl | hother
          · exact Nat.le_refl _
          · exact hafter other hother error' herror
    · obtain ⟨before, x, after, rfl, hx, hleast, hbefore, hafter⟩ := ih hrest
      refine ⟨first :: before, x, after, rfl, hx, hdelay.trans hleast, ?_, hafter⟩
      refine List.forall_mem_cons.mpr ⟨fun error' herror => ?_, hbefore⟩
      rw [← hleast]
      exact hfirst error' herror

/-- No two of them fail first. -/
theorem FailsFirst.unique {computations : List (Traced ε α)} {error error' : Error}
    (h : FailsFirst waits computations error) (h' : FailsFirst waits computations error') :
    error = error' := by
  obtain ⟨before, x, after, rfl, hx, hbefore, hafter⟩ := h
  obtain ⟨before', x', after', hsplit, hx', hbefore', hafter'⟩ := h'
  rcases List.append_eq_append_iff.mp hsplit with ⟨between, rfl, hrest⟩ | ⟨between, rfl, hrest⟩
  · cases between with
    | nil =>
      cases hrest
      exact Except.error.inj (hx.symm.trans hx')
    | cons _ between =>
      cases hrest
      exact absurd (hafter x' (by simp) _ hx') (Nat.not_le.mpr (hbefore' x (by simp) _ hx))
  · cases between with
    | nil =>
      cases hrest
      exact Except.error.inj (hx.symm.trans hx')
    | cons _ between =>
      cases hrest
      exact absurd (hafter' x (by simp) _ hx) (Nat.not_le.mpr (hbefore x' (by simp) _ hx'))

theorem result_together_eq_error_iff {computations : List (Traced ε α)} {error : Error} :
    (together waits computations).result = .error error ↔
      FailsFirst waits computations error := by
  constructor
  · intro h
    obtain ⟨before, x, after, hsplit, hx, _, hbefore, hafter⟩ := failsFirst_of_result_together h
    exact ⟨before, x, after, hsplit, hx, hbefore, hafter⟩
  · intro h
    cases hresult : (together waits computations).result with
    | ok values =>
      obtain ⟨before, x, after, rfl, hx, _⟩ := h
      obtain ⟨_, hok⟩ := Except.exists_mapM_eq_ok_iff.mp
        ⟨values, result_together_eq_ok_iff.mp hresult⟩ x (by simp)
      cases hx.symm.trans hok
    | error error' =>
      obtain ⟨before, x, after, hsplit, hx, _, hbefore, hafter⟩ :=
        failsFirst_of_result_together hresult
      exact congrArg Except.error
        (FailsFirst.unique ⟨before, x, after, hsplit, hx, hbefore, hafter⟩ h)

end Traced

end PathQuery
