import FluentRegex.Proofs.SourceParts

/-!
The tree that a source is read as. The body of a group is found by a scan that keeps a single depth,
and read by a descent into every group and set of its own. Both see the same groups and sets: where
the scan finds the end of a group, the descent finds the end of whatever the body opens, and meets
no closing parenthesis that closes nothing.
-/

namespace FluentRegex.Chain

open Source

/-! ### The tree of a source -/

def openers : Source :=
  [.plain '(', .plain '[']

/-- What is read off a source at once. -/
inductive Part where
  /-- A group with what its body is read as; `closed` if its closing parenthesis is found, and not
  the end of the source instead. -/
  | group (g : Group) (body : List Part) (closed : Bool)
  /-- A set with its body; `closed` if its closing bracket is found. -/
  | set (negated : Bool) (body : Source) (closed : Bool)
  /-- Units that open neither, which are a token, literal text or bounds, and the calls that they
  give. -/
  | units (us : Source) (calls : List Call)

namespace Part

mutual

def calls : Part → List Call
  | group g body _ => [.callback (.enclose (.group g)) [] (allCalls body)]
  | set negated body _ => [setCall negated body]
  | units _ cs => cs

def allCalls : List Part → List Call
  | [] => []
  | p :: ps => p.calls ++ allCalls ps

end

mutual

def source : Part → Source
  | group g body closed =>
    g.opener.map .plain ++ allSource body ++ if closed then [.plain ')'] else []
  | set negated body closed =>
    (Enclosure.set negated).opener.map .plain ++ body ++ if closed then [.plain ']'] else []
  | units us _ => us

def allSource : List Part → Source
  | [] => []
  | p :: ps => p.source ++ allSource ps

end

/-- The part is among the parts, at any depth of groups. -/
inductive Within (p : Part) : List Part → Prop
  | here {ps : List Part} (h : p ∈ ps) : Within p ps
  | inside {g : Group} {body ps : List Part} {closed : Bool} (h : .group g body closed ∈ ps)
      (hw : Within p body) : Within p ps

/-- What the part opens is closed, a set at its first bracket, and among the units of other parts
there is none that opens or closes a group or opens a set. -/
def Sound : Part → Prop
  | group _ _ closed => closed = true
  | set _ body closed => closed = true ∧ SourceUnit.plain ']' ∉ body
  | units us _ => ∀ u ∈ us, u ∉ openers ∧ u ≠ .plain ')'

def AllSound (ps : List Part) : Prop :=
  ∀ p, Within p ps → p.Sound

variable {ps : List Part}

@[simp] theorem allSound_nil : AllSound [] := by
  rintro p (⟨⟨⟩⟩ | ⟨⟨⟩, -⟩)

theorem allSound_cons_iff {p : Part} : AllSound (p :: ps) ↔
    p.Sound ∧ (∀ g body closed, p = .group g body closed → AllSound body) ∧ AllSound ps := by
  constructor
  · intro h
    refine ⟨h p (.here (by simp)), ?_, fun q hq => ?_⟩
    · rintro g body closed rfl q hq
      exact h q (.inside List.mem_cons_self hq)
    · cases hq with
      | here hm => exact h q (.here (List.mem_cons_of_mem _ hm))
      | inside hm hw => exact h q (.inside (List.mem_cons_of_mem _ hm) hw)
  · rintro ⟨hp, hb, hps⟩ q hq
    cases hq with
    | here hm =>
      rcases List.mem_cons.1 hm with rfl | hm
      · exact hp
      · exact hps q (.here hm)
    | inside hm hw =>
      rcases List.mem_cons.1 hm with rfl | hm
      · exact hb _ _ _ rfl q hw
      · exact hps q (.inside hm hw)

@[simp] theorem allSound_group {g : Group} {body : List Part} {closed : Bool} :
    AllSound (.group g body closed :: ps) ↔ closed = true ∧ AllSound body ∧ AllSound ps := by
  simp [allSound_cons_iff, Sound]

@[simp] theorem allSound_set {negated closed : Bool} {body : Source} :
    AllSound (.set negated body closed :: ps) ↔
      (closed = true ∧ SourceUnit.plain ']' ∉ body) ∧ AllSound ps := by
  simp [allSound_cons_iff, Sound]

@[simp] theorem allSound_units {us : Source} {cs : List Call} :
    AllSound (.units us cs :: ps) ↔
      (∀ u ∈ us, u ∉ openers ∧ u ≠ .plain ')') ∧ AllSound ps := by
  simp [allSound_cons_iff, Sound]

end Part

/-- The units that have been read when `rest` is left. -/
def readUnits (us rest : Source) : Source :=
  us.take (us.length - rest.length)

def parts : Source → List Part
  | [] => []
  | u :: us =>
    match _ : Group.takeOpener? (u :: us) with
    | some (g, inner) =>
      let rest := (takeGroup inner).2
      .group g (parts (takeGroup inner).1) (splitGroup? inner).isSome ::
        .units (readUnits rest (takeRange rest).2) (rangeCalls (takeRange rest).1) ::
          parts (takeRange rest).2
    | none =>
      if u = .plain '[' then
        let inner := (setOpening us).2
        let rest := (takeSet inner).2
        .set (setOpening us).1 (takeSet inner).1 (splitSet? inner).isSome ::
          .units (readUnits rest (takeRange rest).2) (rangeCalls (takeRange rest).1) ::
            parts (takeRange rest).2
      else
        match Token.ofUnit? u with
        | some k =>
          .units (readUnits (u :: us) (tokenBounds k us).2)
            [.plain (.token k) (tokenBounds k us).1.arguments] :: parts (tokenBounds k us).2
        | none =>
          .units (readUnits (u :: us) (literalRun outerLiterals [] u us).2)
            ((literalRun outerLiterals [] u us).1.map Literal.call) ::
              parts (literalRun outerLiterals [] u us).2
termination_by us => us.length
decreasing_by
  · rename_i h
    have := Group.length_of_takeOpener? h
    have := Source.length_takeGroup_body_le inner
    omega
  · rename_i h
    have := Group.length_of_takeOpener? h
    have := Source.length_takeGroup_rest_le inner
    have := Source.length_takeRange_le (Source.takeGroup inner).2
    omega
  · have := length_setOpening_le us
    have := Source.length_takeSet_rest_le (setOpening us).2
    have := Source.length_takeRange_le (Source.takeSet (setOpening us).2).2
    simp only [List.length_cons]
    omega
  · have := length_tokenBounds_le k us
    simp only [List.length_cons]
    omega
  · have := length_literalRun_le outerLiterals [] u us
    simp only [List.length_cons]
    omega

theorem allCalls_parts (us : Source) : Part.allCalls (parts us) = callsOfSource us := by
  fun_induction parts us with
  | case1 =>
    rw [callsOfSource]
    rfl
  | case2 u us g inner hg rest ihb ihr =>
    rw [callsOfSource]
    split
    · next h =>
      obtain ⟨rfl, rfl⟩ := by simpa using hg.symm.trans h
      rw [Part.allCalls, Part.calls, Part.allCalls, Part.calls, ihb, ihr]
      rfl
    · next h => cases hg.symm.trans h
  | case3 us inner rest hg ih =>
    rw [callsOfSource]
    split
    · next h => cases hg.symm.trans h
    · rw [if_pos rfl, Part.allCalls, Part.calls, Part.allCalls, Part.calls, ih]
      rfl
  | case4 u us hg hs k hk ih =>
    rw [callsOfSource]
    split
    · next h => cases hg.symm.trans h
    · rw [if_neg hs, hk, Part.allCalls, Part.calls, ih]
      rfl
  | case5 u us hg hs hk ih =>
    rw [callsOfSource]
    split
    · next h => cases hg.symm.trans h
    · rw [if_neg hs, hk, Part.allCalls, Part.calls, ih]

variable {u : SourceUnit} {us vs rest body : Source}

theorem readUnits_append (h : rest <:+ us) : readUnits us rest ++ rest = us :=
  List.suffix_iff_eq_append.1 h

theorem readUnits_self (us : Source) : readUnits us us = [] := by
  simp [readUnits]

theorem readUnits_cons (h : rest <:+ us) : readUnits (u :: us) rest = u :: readUnits us rest := by
  have := h.length_le
  rw [readUnits, readUnits, List.length_cons, Nat.sub_add_comm this, List.take_succ_cons]

/-- A group that is taken, with the parenthesis that closes it if there is one. -/
theorem takeGroup_append (us : Source) :
    (takeGroup us).1 ++ ((if (splitGroup? us).isSome then [.plain ')'] else []) ++
      (takeGroup us).2) = us := by
  rw [takeGroup]
  cases h : splitGroup? us with
  | none => simp
  | some r => exact (eq_of_splitGroup? h).symm

/-- A set that is taken, with the bracket that closes it if there is one. -/
theorem takeSet_append (us : Source) :
    (takeSet us).1 ++ ((if (splitSet? us).isSome then [.plain ']'] else []) ++
      (takeSet us).2) = us := by
  rw [takeSet]
  cases h : splitSet? us with
  | none => simp
  | some r => exact (splitSet?_eq_some_iff.1 h).1.symm

/-- The parts of a source are read off all of it. -/
theorem allSource_parts (us : Source) : Part.allSource (parts us) = us := by
  fun_induction parts us with
  | case1 => rfl
  | case2 u us g inner hg rest ihb ihr =>
    rw [Part.allSource, Part.source, Part.allSource, Part.source, ihb, ihr,
      readUnits_append (suffix_takeRange rest), List.append_assoc, List.append_assoc,
      takeGroup_append]
    exact (Group.eq_of_takeOpener? hg).symm
  | case3 us inner rest hg ih =>
    rw [Part.allSource, Part.source, Part.allSource, Part.source, ih,
      readUnits_append (suffix_takeRange rest), List.append_assoc, List.append_assoc,
      takeSet_append]
    exact (eq_of_setOpening us).symm
  | case4 u us hg hs k hk ih =>
    have hr := (suffix_tokenBounds k us).trans (List.suffix_cons u us)
    rw [Part.allSource, Part.source, ih, readUnits_append hr]
  | case5 u us hg hs hk ih =>
    have hr := (suffix_literalRun outerLiterals [] u us).trans (List.suffix_cons u us)
    rw [Part.allSource, Part.source, ih, readUnits_append hr]

/-! ### Units that open nothing -/

theorem outOfRange_of_mem_openers (hu : u ∈ openers) : OutOfRange u := by
  rintro c rfl
  have hc : c = '(' ∨ c = '[' := by simpa [openers] using hu
  rcases hc with rfl | rfl <;> decide

theorem notMem_openers_of_mem_range (us : Source) :
    ∀ v ∈ readUnits us (takeRange us).2, v ∉ openers := by
  intro v hv ho
  -- Otherwise what is left would go on before that unit.
  obtain ⟨as, bs, e⟩ := List.append_of_mem hv
  have hus := readUnits_append (suffix_takeRange us)
  rw [e, List.append_assoc, List.cons_append] at hus
  have hr := takeRange_append_cons (outOfRange_of_mem_openers ho) as (bs ++ (takeRange us).2)
  rw [hus] at hr
  have := congrArg (fun r => r.2.length) hr
  simp at this
  omega

theorem notMem_openers_of_mem_tokenBounds (k : Token) (us : Source) :
    ∀ v ∈ readUnits us (tokenBounds k us).2, v ∉ openers := by
  rw [tokenBounds]
  split
  · exact notMem_openers_of_mem_range us
  · simp [readUnits_self]

theorem notMem_openers_of_ends (h : outerLiterals.ends u ≠ true) : u ∉ openers := by
  simp_all [outerLiterals, openers]

theorem notMem_openers_of_mem_literalRun (run : Text) (u : SourceUnit) (us : Source) :
    ∀ v ∈ readUnits us (literalRun outerLiterals run u us).2, v ∉ openers := by
  fun_induction literalRun outerLiterals run u us with
  | case1 us run u piece bounds rest hb =>
    have hr : (takeRange us).2 = rest := by rw [takeRange, hb]; rfl
    exact hr ▸ notMem_openers_of_mem_range us
  | case2 => simp [readUnits]
  | case3 => simp [readUnits_self]
  | case4 => simp [readUnits_self]
  | case5 run u v vs hv he piece hb ih =>
    rw [readUnits_cons (suffix_literalRun _ _ v vs)]
    intro w hw
    rcases List.mem_cons.1 hw with rfl | hw
    · exact notMem_openers_of_ends he
    · exact ih w hw

theorem notMem_openers_cons (hg : Group.takeOpener? (u :: us) = none) (hs : u ≠ .plain '[')
    (hr : rest <:+ us) (hv : ∀ v ∈ readUnits us rest, v ∉ openers) :
    ∀ v ∈ readUnits (u :: us) rest, v ∉ openers := by
  rw [readUnits_cons hr]
  exact List.forall_mem_cons.2 ⟨by simp [openers, hs, Group.takeOpener?_eq_none_iff.1 hg], hv⟩

theorem step?_of_notMem_openers (hu : u ∉ openers) (hc : u ≠ .plain ')') (n : Nat) :
    (⟨n, false⟩ : Depth).step? u = some ⟨n, false⟩ := by
  unfold Depth.step?
  split <;> simp_all [openers]

/-! ### Scanning -/

/-- The scan for the end of a group goes over the source, and is then where it started. -/
def Scanned (us : Source) : Prop :=
  ({} : Depth).run? us = some {}

/-- A group ends at the first closing parenthesis that the scan comes to outside of everything that
is opened before it. -/
theorem splitGroup?_eq_some_iff :
    splitGroup? us = some (body, rest) ↔ us = body ++ .plain ')' :: rest ∧ Scanned body := by
  constructor
  · exact fun h => ⟨eq_of_splitGroup? h, run?_of_splitGroupFrom? h⟩
  · rintro ⟨rfl, h⟩
    rw [splitGroup?, splitGroupFrom?_append h]
    simp [splitGroupFrom?, Depth.step?]

/-- Units that open nothing only have to hold no closing parenthesis. -/
theorem scanned_append_iff (hv : ∀ v ∈ vs, v ∉ openers) :
    Scanned (vs ++ rest) ↔ (∀ v ∈ vs, v ∉ openers ∧ v ≠ .plain ')') ∧ Scanned rest := by
  induction vs with
  | nil => simp
  | cons v vs ih =>
    obtain ⟨hv, hvs⟩ := List.forall_mem_cons.1 hv
    by_cases hc : v = .plain ')'
    · simp [hc, Scanned, Depth.run?, Depth.step?]
    · have hs : Scanned (v :: (vs ++ rest)) ↔ Scanned (vs ++ rest) := by
        rw [Scanned, Depth.run?, step?_of_notMem_openers hv hc]
        rfl
      simp only [List.cons_append, hs, ih hvs, List.forall_mem_cons, hv, hc, not_false_eq_true,
        ne_eq, and_self, true_and]

/-- A group has to be closed, and its body to be passed over. -/
theorem scanned_group_iff (g : Group) (us : Source) :
    Scanned (g.opener.map .plain ++ us) ↔
      (splitGroup? us).isSome ∧ Scanned (takeGroup us).1 ∧ Scanned (takeGroup us).2 := by
  have ho : Scanned (g.opener.map .plain ++ us) ↔ (Depth.deeper {}).run? us = some {} := by
    cases g <;> rfl
  rw [ho, takeGroup]
  cases hs : splitGroup? us with
  | none =>
    -- Without a closing parenthesis the scan never comes back from inside the group.
    obtain ⟨e, he⟩ := exists_run?_of_splitGroupFrom? hs
    rw [Depth.run?_deeper he]
    simp [Depth.deeper]
  | some r =>
    obtain ⟨rfl, hb⟩ := splitGroup?_eq_some_iff.1 hs
    rw [Depth.run?_append, Depth.run?_deeper hb]
    simp only [Option.isSome_some, Option.getD_some, hb, true_and]
    rfl

theorem notMem_of_splitSet? (h : splitSet? us = none) : SourceUnit.plain ']' ∉ us := by
  intro hm
  obtain ⟨body, rest, rfl, hb⟩ := List.eq_append_cons_of_mem hm
  rw [splitSet?_eq_some_iff.2 ⟨rfl, hb⟩] at h
  cases h

theorem notMem_takeSet (us : Source) : SourceUnit.plain ']' ∉ (takeSet us).1 := by
  rw [takeSet]
  cases hs : splitSet? us with
  | none => exact notMem_of_splitSet? hs
  | some r => exact (splitSet?_eq_some_iff.1 hs).2

theorem scanned_set_iff (negated : Bool) (us : Source) :
    Scanned ((Enclosure.set negated).opener.map .plain ++ us) ↔
      (splitSet? us).isSome ∧ Scanned (takeSet us).2 := by
  have ho : Scanned ((Enclosure.set negated).opener.map .plain ++ us) ↔
      (⟨0, true⟩ : Depth).run? us = some {} := by
    cases negated <;> rfl
  rw [ho, takeSet]
  cases hs : splitSet? us with
  | none =>
    rw [run?_in_set 0 (notMem_of_splitSet? hs)]
    simp
  | some r =>
    obtain ⟨rfl, hb⟩ := splitSet?_eq_some_iff.1 hs
    rw [Depth.run?_append, run?_in_set 0 hb]
    simp only [Option.isSome_some, Option.getD_some, true_and]
    rfl

/-! ### The scan and the descent -/

variable {cs : List Call} {ps : List Part}

/-- What is read at once without opening anything, and what is read after it. -/
theorem scanned_iff_allSound_units (hs : rest <:+ us) (hv : ∀ v ∈ readUnits us rest, v ∉ openers)
    (ih : Scanned rest ↔ Part.AllSound ps) :
    Scanned us ↔ Part.AllSound (.units (readUnits us rest) cs :: ps) := by
  rw [Part.allSound_units, ← ih, ← scanned_append_iff hv, readUnits_append hs]

/-- The scan goes over a source and comes back to where it was exactly if the descent finds the end
of every group and set, and no closing parenthesis besides. -/
theorem scanned_iff_allSound (us : Source) : Scanned us ↔ Part.AllSound (parts us) := by
  fun_induction parts us with
  | case1 => simp [Scanned, Depth.run?]
  | case2 u us g inner hg rest ihb ihr =>
    rw [Group.eq_of_takeOpener? hg, scanned_group_iff, Part.allSound_group, ← ihb,
      ← scanned_iff_allSound_units (suffix_takeRange _) (notMem_openers_of_mem_range _) ihr]
  | case3 us inner rest hg ih =>
    rw [eq_of_setOpening, scanned_set_iff, Part.allSound_set, and_iff_left (notMem_takeSet inner),
      ← scanned_iff_allSound_units (suffix_takeRange _) (notMem_openers_of_mem_range _) ih]
  | case4 u us hg hs k hk ih =>
    have hr := suffix_tokenBounds k us
    refine scanned_iff_allSound_units (hr.trans (List.suffix_cons u us)) ?_ ih
    exact notMem_openers_cons hg hs hr (notMem_openers_of_mem_tokenBounds k us)
  | case5 u us hg hs hk ih =>
    have hr := suffix_literalRun outerLiterals [] u us
    refine scanned_iff_allSound_units (hr.trans (List.suffix_cons u us)) ?_ ih
    exact notMem_openers_cons hg hs hr (notMem_openers_of_mem_literalRun [] u us)

/-- The scan closes a group at the closing parenthesis before which the descent is sound. -/
theorem splitGroup?_eq_some_iff_allSound : splitGroup? us = some (body, rest) ↔
    us = body ++ .plain ')' :: rest ∧ Part.AllSound (parts body) := by
  rw [splitGroup?_eq_some_iff, scanned_iff_allSound]

/-- A group whose closing parenthesis is found has a body that is read, by a descent into its own
groups and sets, without a closing parenthesis besides theirs, and in which every group and set, at
any depth, is closed. The parts of the body are read off all of it, they give the calls of the
callback, and the body is cut into units the same way where it is read on its own. -/
theorem sound_of_splitGroup? {t : Text} (h : splitGroup? (ofText t) = some (body, rest)) :
    ofText body.text = body ∧ Part.allSource (parts body) = body ∧
      Part.allCalls (parts body) = callsOfSource body ∧
        ∀ p, Part.Within p (parts body) → p.Sound := by
  obtain ⟨e, hb⟩ := splitGroup?_eq_some_iff_allSound.1 h
  have hp := proper_ofText t
  rw [e] at hp
  exact ⟨hp.left, allSource_parts body, allCalls_parts body, hb⟩

/-- A body with a group, an escaped parenthesis and two sets, of which one is empty and the other
holds parentheses. -/
theorem sound_of_splitGroup?_sets :
    splitGroup? (ofText "a(?:[)(]b)\\)[^]c)d".toList) =
        some (ofText "a(?:[)(]b)\\)[^]c".toList, ofText "d".toList) ∧
      ∀ p, Part.Within p (parts (ofText "a(?:[)(]b)\\)[^]c".toList)) → p.Sound := by
  have h : splitGroup? (ofText "a(?:[)(]b)\\)[^]c)d".toList) =
      some (ofText "a(?:[)(]b)\\)[^]c".toList, ofText "d".toList) := by decide
  exact ⟨h, (sound_of_splitGroup? h).2.2.2⟩

end FluentRegex.Chain
