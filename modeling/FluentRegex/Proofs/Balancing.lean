import FluentRegex.Proofs.Rebuilding

/-!
Balanced sources, over which the scan for the end of a group comes back to the depth it started
from. So a group ends right after a balanced body. Sets are balanced whatever they hold, and groups
are if their bodies are.
-/

namespace FluentRegex.Source

variable {u : SourceUnit} {us vs body : Source}

/-! ### Scanning -/

/-- The depth after units in order, if none of them closes the group that is scanned. -/
def Depth.run? (d : Depth) : Source → Option Depth
  | [] => some d
  | u :: us => (d.step? u).bind fun e => e.run? us

theorem Depth.run?_append (d : Depth) (us vs : Source) :
    d.run? (us ++ vs) = (d.run? us).bind fun e => e.run? vs := by
  induction us generalizing d with
  | nil => rfl
  | cons u us ih =>
    rw [List.cons_append, run?, run?]
    cases d.step? u with
    | none => rfl
    | some e => exact ih e

/-- Only outside of sets and of groups inside does a unit close the group that is scanned. -/
theorem Depth.eq_of_step?_eq_none {d : Depth} (h : d.step? u = none) : d = {} := by
  obtain ⟨n, s⟩ := d
  unfold step? at h
  split at h
  · cases h
  · cases h
  · split at h <;> cases h
  · cases s <;> cases n <;> first | rfl | cases h
  · cases h

theorem run?_of_splitGroupFrom? {d : Depth} (h : splitGroupFrom? d us = some (body, vs)) :
    d.run? body = some {} := by
  induction us generalizing d body with
  | nil => cases h
  | cons u us ih =>
    rw [splitGroupFrom?] at h
    split at h
    · next hs =>
      cases h
      rw [Depth.eq_of_step?_eq_none hs]
      rfl
    · next d' hs =>
      simp only [Option.map_eq_some_iff, Prod.mk.injEq] at h
      obtain ⟨_, h, rfl, rfl⟩ := h
      rw [Depth.run?, hs]
      exact ih h

theorem exists_run?_of_splitGroupFrom? {d : Depth} (h : splitGroupFrom? d us = none) :
    ∃ e, d.run? us = some e := by
  induction us generalizing d with
  | nil => exact ⟨d, rfl⟩
  | cons u us ih =>
    rw [splitGroupFrom?] at h
    split at h
    · cases h
    · next d' hs =>
      obtain ⟨e, he⟩ := ih (Option.map_eq_none_iff.1 h)
      exact ⟨e, by rw [Depth.run?, hs]; exact he⟩

def Depth.deeper (d : Depth) : Depth :=
  { d with groups := d.groups + 1 }

theorem Depth.step?_deeper {d e : Depth} (h : d.step? u = some e) :
    d.deeper.step? u = some e.deeper := by
  obtain ⟨n, s⟩ := d
  unfold step? at h ⊢
  split at h
  · cases h; rfl
  · cases h; rfl
  · cases s <;> cases h <;> rfl
  · cases s <;> cases n <;> cases h <;> rfl
  · cases h; rfl

theorem Depth.run?_deeper {d e : Depth} (h : d.run? us = some e) :
    d.deeper.run? us = some e.deeper := by
  induction us generalizing d with
  | nil => cases h; rfl
  | cons u us ih =>
    rw [run?, Option.bind_eq_some_iff] at h
    obtain ⟨d', hu, h⟩ := h
    rw [run?, step?_deeper hu]
    exact ih h

theorem splitGroupFrom?_append {d e : Depth} (h : d.run? us = some e) (vs : Source) :
    splitGroupFrom? d (us ++ vs) = (splitGroupFrom? e vs).map fun r => (us ++ r.1, r.2) := by
  induction us generalizing d with
  | nil =>
    cases h
    simp
  | cons u us ih =>
    rw [Depth.run?, Option.bind_eq_some_iff] at h
    obtain ⟨d', hu, h⟩ := h
    rw [List.cons_append, splitGroupFrom?, hu]
    simp only [ih h, Option.map_map]
    rfl

/-! ### Balanced sources -/

def delimiters : Source :=
  [.plain '(', .plain ')', .plain '[', .plain ']']

/-- Outside of sets, the source closes exactly the groups and the sets that it opens. -/
def Balanced (us : Source) : Prop :=
  ∀ n, (⟨n, false⟩ : Depth).run? us = some ⟨n, false⟩

theorem balanced_nil : Balanced [] :=
  fun _ => rfl

theorem Balanced.append (h : Balanced us) (h' : Balanced vs) : Balanced (us ++ vs) := by
  intro n
  rw [Depth.run?_append, h n]
  exact h' n

theorem step?_of_notMem (hu : u ∉ delimiters) (n : Nat) :
    (⟨n, false⟩ : Depth).step? u = some ⟨n, false⟩ := by
  unfold Depth.step?
  split <;> simp_all [delimiters]

theorem balanced_cons_iff (hu : u ∉ delimiters) : Balanced (u :: us) ↔ Balanced us := by
  simp [Balanced, Depth.run?, step?_of_notMem hu]

theorem Balanced.cons (hu : u ∉ delimiters) (h : Balanced us) : Balanced (u :: us) :=
  (balanced_cons_iff hu).2 h

theorem balanced_of_notMem (h : ∀ u ∈ us, u ∉ delimiters) : Balanced us := by
  induction us with
  | nil => exact balanced_nil
  | cons u us ih => exact (ih fun v hv => h v (by simp [hv])).cons (h u (by simp))

theorem notMem_delimiters {c : Char} (h : c = '{' ∨ c = '}' ∨ c = ',' ∨ c.isDigit = true) :
    SourceUnit.plain c ∉ delimiters := by
  intro m
  simp only [delimiters, List.mem_cons, SourceUnit.plain.injEq, List.not_mem_nil, or_false] at m
  rcases m with rfl | rfl | rfl | rfl <;> revert h <;> decide

theorem balanced_units (q : Quantifier) : Balanced q.units := by
  refine balanced_of_notMem fun u hu => ?_
  obtain ⟨c, rfl, hc⟩ := mem_units hu
  exact notMem_delimiters hc

/-- Inside a set only a closing bracket changes the depth. -/
theorem run?_in_set (n : Nat) (h : SourceUnit.plain ']' ∉ us) :
    (⟨n, true⟩ : Depth).run? us = some ⟨n, true⟩ := by
  induction us with
  | nil => rfl
  | cons u us ih =>
    have hu := List.ne_of_not_mem_cons h
    have hs : (⟨n, true⟩ : Depth).step? u = some ⟨n, true⟩ := by
      unfold Depth.step?
      split <;> simp_all
    rw [Depth.run?, hs]
    exact ih (List.not_mem_of_not_mem_cons h)

theorem balanced_set (negated : Bool) (h : SourceUnit.plain ']' ∉ body) :
    Balanced (enclosed (.set negated) body) := by
  intro n
  have ho : (⟨n, false⟩ : Depth).run? ((Enclosure.set negated).opener.map .plain) =
      some ⟨n, true⟩ := by
    cases negated <;> rfl
  rw [enclosed, Depth.run?_append, Depth.run?_append, ho]
  simp only [Option.bind_some, run?_in_set n h]
  rfl

theorem balanced_group (g : Group) (h : Balanced body) : Balanced (enclosed (.group g) body) := by
  intro n
  have ho : (⟨n, false⟩ : Depth).run? ((Enclosure.group g).opener.map .plain) =
      some ⟨n + 1, false⟩ := by
    cases g <;> rfl
  rw [enclosed, Depth.run?_append, Depth.run?_append, ho]
  simp only [Option.bind_some, h (n + 1)]
  rfl

theorem Balanced.takeGroup (h : Balanced body) (rest : Source) :
    takeGroup (body ++ .plain ')' :: rest) = (body, rest) := by
  rw [Source.takeGroup, splitGroup?, splitGroupFrom?_append (h 0)]
  simp [splitGroupFrom?, Depth.step?]

theorem balanced_headUnits (h : Balanced us) : Balanced (headUnits us) := by
  unfold headUnits
  split
  · exact ((balanced_cons_iff (by decide)).1 h).cons (by decide)
  · exact h

end FluentRegex.Source
