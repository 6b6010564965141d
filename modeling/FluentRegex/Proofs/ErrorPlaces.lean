import FluentRegex.Chain.Read
import FluentRegex.Proofs.Boundaries
import FluentRegex.Proofs.LiteralText

/-!
Where reading errors point. Every error has the place of a lexeme, of what is no lexeme, or of the
end of the text; what stands before it lexes on its own, and what stands there is what the error is
about. For a name of several parts this is an invariant of the reader, which keeps the place of the
first.
-/

namespace FluentRegex.Chain

open Source

variable {c : Char} {t : Text} {l : Lexeme} {seen : List Located}

/-- The first part of a name that is read so far. -/
def FirstPart (first name : Text) : Prop :=
  name = first ∨ ∃ more, name = first ++ '.' :: more

theorem FirstPart.part {first name : Text} (h : FirstPart first name) (u : Text) :
    FirstPart first (name ++ '.' :: u) := by
  rcases h with rfl | ⟨more, rfl⟩
  · exact .inr ⟨u, rfl⟩
  · exact .inr ⟨more ++ '.' :: u, by simp⟩

theorem FirstPart.eq_done {first : Text} (h : FirstPart first "done".toList) :
    first = "done".toList := by
  rcases h with h | ⟨more, h⟩
  · exact h.symm
  · have hm : '.' ∉ "done".toList := by decide
    simp [h] at hm

theorem FirstPart.takeWhile_eq {first name : Text} (h : FirstPart first name) (hf : '.' ∉ first) :
    name.takeWhile (· != '.') = first := by
  have hall : ∀ d ∈ first, (d != '.') = true := fun d hd => by
    simpa using fun e : d = '.' => hf (e ▸ hd)
  rcases h with rfl | ⟨more, rfl⟩
  · have hr : Stops (· != '.') [] := nofun
    simpa using (hr.takeWhile_append hall).1
  · rw [List.takeWhile_append_of_pos hall]
    simp

/-- What stands at the place of an error: the text before the place lexes, and the rest of the text
starts with what the error is about. -/
def ReadError.Cause {α : Type} (before rest : Text) : ReadError α → Prop
  | expected _ _ => rest = [] ∨ ∃ l, ⟨rest, l⟩ ∈ (lex (before ++ rest)).1
  | unexpected found _ => rest.head? = some found ∧ (lex rest).1 = []
  | unknownOperation name _ =>
    ∃ first, ⟨rest, .name first⟩ ∈ (lex (before ++ rest)).1 ∧ rest.takeWhile isNamePart = first ∧
      name.takeWhile (· != '.') = first ∧ Operation.ofName? name = none
  | invalidNumber _ =>
    (∀ d ∈ before.getLast?, d.isDigit = false) ∧
      4294967295 < Text.numeralValue (rest.takeWhile Char.isDigit)
  | unterminated _ =>
    ∃ quote after, rest = quote :: after ∧ isQuote quote = true ∧ ¬ Bare quote after
  | trailing _ => ∃ l, ⟨rest, l⟩ ∈ (lex (before ++ rest)).1
  | nestedDone _ =>
    ⟨rest, .name "done".toList⟩ ∈ (lex (before ++ rest)).1 ∧
      rest.takeWhile isNamePart = "done".toList

/-! ### What is no lexeme -/

/-- Quoted text is closed exactly by its quote where no backslash escapes it. -/
theorem takeQuoted?_eq_none_iff {quote : Char} (hq : quote ≠ '\\') :
    takeQuoted? quote t = none ↔ ¬ Bare quote t := by
  rw [bare_iff hq]
  fun_induction takeQuoted? quote t with
  | case1 => simp
  | case2 c t ih => simp [ih]
  | case3 t hb => simp [ofText_plain hq]
  | case4 c t hb hc ih =>
    by_cases hbs : c = '\\'
    · subst hbs
      cases t with
      | nil => simp [takeQuoted?, Ne.symm hc]
      | cons d t => exact absurd rfl (hb d t rfl)
    · simp [ofText_plain hbs, ih, Ne.symm hc]

theorem lt_numeralValue_of_bound? {digits : Text} (hne : digits ≠ [])
    (h : Text.bound? digits = none) : 4294967295 < Text.numeralValue digits := by
  have hs : ¬ Text.numeralValue digits < UInt32.size := fun hlt => by
    simp [Text.bound?, hne, hlt] at h
  rw [UInt32.size] at hs
  omega

theorem exists_of_fault {place : Text} {e : LexicalError} (h : (lex t).2 = .fault place e) :
    ∃ c r, place = c :: r ∧ Text.isBlank c = false ∧ lexeme c r = .error e := by
  induction t using lexInduction with
  | nil => simp at h
  | blank c t hb ih => exact ih (by rwa [lex_of_blank hb] at h)
  | error c t e' hb he =>
    rw [lex_of_error hb he] at h
    cases h
    exact ⟨c, t, rfl, hb, he⟩
  | lexeme c w l rest hl ih => exact ih (by rwa [hl.lex_append] at h)

/-- At a place from which no lexeme can be read there is what the error says. -/
theorem cause_of_fault {before place : Text} {e : LexicalError} (h : (lex t).2 = .fault place e)
    (hb : Boundary before place) : (ReadError.ofLexical place e).Cause before place := by
  obtain ⟨c, r, rfl, hc, he⟩ := exists_of_fault h
  have hl := lex_of_error hc he
  revert he
  fun_cases lexeme c r with
  | case4 hp ha hq hs =>
    rintro ⟨⟩
    exact ⟨c, r, rfl, hq, (takeQuoted?_eq_none_iff (ne_backslash_of_isQuote hq)).1 hs⟩
  | case6 hp ha hq hd hn =>
    rintro ⟨⟩
    refine ⟨hb.isDigit_getLast? rfl hd, ?_⟩
    rw [List.takeWhile_cons_of_pos hd]
    exact lt_numeralValue_of_bound? (List.cons_ne_nil _ _) hn
  | case8 hp ha hq hd hs =>
    rintro ⟨⟩
    exact ⟨rfl, by rw [hl]⟩
  | _ => rintro ⟨⟩

/-! ### The reader -/

/-- The error is at a lexeme that has been read, and for that lexeme. -/
def ReadError.Blames (seen : List Located) : ReadError Text → Prop
  | expected _ place | trailing place => ∃ l, ⟨place, l⟩ ∈ seen
  | unknownOperation name place =>
    ∃ first, ⟨place, .name first⟩ ∈ seen ∧ FirstPart first name ∧ Operation.ofName? name = none
  | nestedDone place => ⟨place, .name "done".toList⟩ ∈ seen
  | unexpected _ _ | invalidNumber _ | unterminated _ => False

namespace State

/-- The name that is being read starts with the lexeme at the place that is kept. -/
def Anchored (seen : List Located) : State → Prop
  | namePart _ _ place t | nameEnd _ _ place t =>
    ∃ first, ⟨place, .name first⟩ ∈ seen ∧ FirstPart first t
  | _ => True

/-- A step leads to an anchored state, or to an error for a lexeme. -/
def Accountable (seen : List Located) : Except (ReadError Text) State → Prop
  | .ok s => s.Anchored seen
  | .error e => e.Blames seen

variable {place : Text}

theorem accountable_stepEnd (hx : ⟨place, l⟩ ∈ seen) (cs : List Call) (ns : Nesting) :
    Accountable seen (stepEnd cs place ns l) := by
  rcases ns with _ | ⟨⟨_ | _, oc⟩, ns⟩ <;> cases l <;> first | trivial | exact ⟨_, hx⟩

theorem accountable_stepOpen {first name : Text} (hm : ⟨place, .name first⟩ ∈ seen)
    (hf : FirstPart first name) (ns : Nesting) (cs : List Call) :
    Accountable seen (stepOpen ns cs place name) := by
  unfold stepOpen
  split
  · next hn =>
    subst hn
    split
    · exact True.intro
    · rw [hf.eq_done] at hm
      exact hm
  · split
    · exact True.intro
    · next ho => exact ⟨first, hm, hf, ho⟩

theorem accountable_stepArgument (hx : ⟨place, l⟩ ∈ seen) (ns : Nesting) (oc : OpenCall)
    (body : Option (List Call)) : Accountable seen (stepArgument ns oc place body l) := by
  cases body <;> cases l <;> first | trivial | exact ⟨_, hx⟩

/-- One step from an anchored state. -/
theorem accountable_step {s : State} (hs : s.Anchored seen) (hx : ⟨place, l⟩ ∈ seen) :
    Accountable seen (s.step place l) := by
  cases s with
  | root ns =>
    rcases ns with _ | ⟨⟨_ | _, oc⟩, ns⟩ <;> cases l <;> try first | trivial | exact ⟨_, hx⟩
    -- What is left is a name in braces, which is `return` or a root.
    rw [step]
    split <;> trivial
  | calls ns cs => cases l <;> first | trivial | exact accountable_stepEnd hx cs ns
  | name ns cs => cases l <;> first | exact ⟨_, hx, .inl rfl⟩ | exact ⟨_, hx⟩
  | namePart ns cs start t =>
    obtain ⟨first, hm, hf⟩ := hs
    cases l <;> first | exact ⟨first, hm, hf.part _⟩ | exact ⟨_, hx⟩
  | nameEnd ns cs start t =>
    obtain ⟨first, hm, hf⟩ := hs
    cases l <;>
      first | exact accountable_stepOpen hm hf ns cs | exact ⟨first, hm, hf⟩ | exact ⟨_, hx⟩
  | argument ns oc body => exact accountable_stepArgument hx ns oc body
  | _ => cases l <;> first | trivial | exact ⟨_, hx⟩

/-- A run over lexemes from an anchored state. -/
theorem accountable_run {s : State} {ls : List Located} (hs : s.Anchored seen) (hls : ls ⊆ seen) :
    Accountable seen (s.run ls) := by
  induction ls generalizing s with
  | nil => exact hs
  | cons x xs ih =>
    obtain ⟨hx, hxs⟩ := List.cons_subset.1 hls
    have hstep : Accountable seen (s.step x.place x.lexeme) := accountable_step hs hx
    rw [run_cons]
    cases h : s.step x.place x.lexeme with
    | ok s' =>
      rw [h] at hstep
      exact ih hstep hxs
    | error e =>
      rw [h] at hstep
      exact hstep

end State

/-! ### Errors -/

theorem exists_spelled_of_mem {x : Located} (h : x ∈ (lex t).1) :
    ∃ c w rest, x.place = c :: (w ++ rest) ∧ Spelled c w x.lexeme rest := by
  induction t using lexInduction with
  | nil => simp at h
  | blank c t hb ih => exact ih (by rwa [lex_of_blank hb] at h)
  | error c t e hb he => simp [lex_of_error hb he] at h
  | lexeme c w l rest hl ih =>
    rw [hl.lex_append] at h
    rcases List.mem_cons.1 h with rfl | h
    · exact ⟨c, w, rest, rfl, hl⟩
    · exact ih h

/-- A name is the longest that can be read where it stands, and has no dot. -/
theorem of_name_mem {place name : Text} (h : ⟨place, .name name⟩ ∈ (lex t).1) :
    place.takeWhile isNamePart = name ∧ '.' ∉ name := by
  obtain ⟨c, w, rest, rfl, hs⟩ := exists_spelled_of_mem h
  cases hs with
  | punctuation hp =>
    unfold punctuation? at hp
    split at hp <;> cases hp
  | name hd hc hw hr =>
    have hall : ∀ d ∈ c :: w, isNamePart d = true :=
      List.forall_mem_cons.2 ⟨by simp [isNamePart, hc], hw⟩
    refine ⟨(hr.takeWhile_append hall).1, fun hm => ?_⟩
    exact notMem_separators (hall _ hm) (by decide)

theorem ReadError.Blames.cause {before : Text} {e : ReadError Text}
    (h : e.Blames (lex (before ++ e.place)).1) : e.Cause before e.place := by
  cases e with
  | expected what place => exact .inr h
  | trailing place => exact h
  | unknownOperation name place =>
    obtain ⟨first, hm, hf, ho⟩ := h
    obtain ⟨ht, hd⟩ := of_name_mem hm
    exact ⟨first, hm, ht, hf.takeWhile_eq hd, ho⟩
  | nestedDone place => exact ⟨h, (of_name_mem h).1⟩
  | _ => exact h.elim

theorem mem_places {x : Located} (h : x ∈ (lex t).1) : x.place ∈ places t :=
  List.mem_append_left _ (List.mem_map_of_mem h)

theorem ReadError.Blames.place_mem {e : ReadError Text} (h : e.Blames (lex t).1) :
    e.place ∈ places t := by
  cases e with
  | expected what place | trailing place =>
    obtain ⟨l, hm⟩ := h
    exact mem_places hm
  | unknownOperation name place =>
    obtain ⟨first, hm, -⟩ := h
    exact mem_places hm
  | nestedDone place => exact mem_places h
  | _ => exact h.elim

theorem place_ofLexical (place : Text) (e : LexicalError) :
    (ReadError.ofLexical place e).place = place := by
  cases e <;> rfl

/-- An error is for a lexeme, for what is no lexeme, or for the end of the text. -/
theorem ofLexemes_error_cases {e : ReadError Text}
    (h : ofLexemes (lex t).1 (lex t).2 = .error e) :
    e.Blames (lex t).1 ∨
      (∃ place e', (lex t).2 = .fault place e' ∧ e = .ofLexical place e') ∨
        (lex t).2 = .complete ∧ ∃ what, e = .expected what [] := by
  have hrun : State.Accountable (lex t).1 (State.start.run (lex t).1) :=
    State.accountable_run True.intro (List.Subset.refl _)
  rw [ofLexemes] at h
  cases hs : State.start.run (lex t).1 with
  | error e' =>
    rw [hs] at h hrun
    cases h
    exact .inl hrun
  | ok s =>
    rw [hs] at h
    cases hl : (lex t).2 with
    | fault place e' =>
      rw [hl] at h
      cases h
      exact .inr (.inl ⟨place, e', rfl, rfl⟩)
    | complete =>
      rw [hl] at h
      change s.finish.mapError (fun what => .expected what []) = .error e at h
      cases hf : s.finish with
      | ok chain =>
        rw [hf] at h
        cases h
      | error what =>
        rw [hf] at h
        cases h
        exact .inr (.inr ⟨rfl, what, rfl⟩)

/-- An error of the reader is at a boundary of the text, and its cause is there. -/
theorem cause_of_ofLexemes {e : ReadError Text} (h : ofLexemes (lex t).1 (lex t).2 = .error e) :
    ∃ before, t = before ++ e.place ∧ Boundary before e.place ∧ e.Cause before e.place := by
  rcases ofLexemes_error_cases h with hb | ⟨place, e', hl, rfl⟩ | ⟨hl, what, rfl⟩
  · obtain ⟨before, ht, hbd⟩ := exists_boundary hb.place_mem
    rw [ht] at hb
    exact ⟨before, ht, hbd, hb.cause⟩
  · have hp : place ∈ places t := by simp [places, hl, Ending.place]
    obtain ⟨before, ht, hbd⟩ := exists_boundary hp
    rw [place_ofLexical]
    exact ⟨before, ht, hbd, cause_of_fault hl hbd⟩
  · have hp : [] ∈ places t := by simp [places, hl, Ending.place]
    obtain ⟨before, ht, hbd⟩ := exists_boundary hp
    exact ⟨before, ht, hbd, .inl rfl⟩

theorem cause_map {α β : Type} (f : α → β) (e : ReadError α) (before rest : Text) :
    (e.map f).Cause before rest ↔ e.Cause before rest := by
  cases e <;> rfl

/-- Every reading error has the offset of a place between two characters of the text, or of its end.
What stands before the place are blanks and lexemes, and at the place there is what the error is
about. -/
theorem exists_cause_of_read {e : ReadError Nat} (h : read t = .error e) :
    ∃ before rest, t = before ++ rest ∧ e.place = Text.byteSize before ∧
      e.place ≤ Text.byteSize t ∧ (lex before).2 = .complete ∧ e.Cause before rest := by
  rw [read] at h
  cases ho : ofLexemes (lex t).1 (lex t).2 with
  | ok chain =>
    rw [ho] at h
    cases h
  | error e' =>
    rw [ho] at h
    obtain rfl : e'.map (offset t) = e := by cases h; rfl
    obtain ⟨before, ht, hb, hc⟩ := cause_of_ofLexemes ho
    have hp : (e'.map (offset t)).place = Text.byteSize before := by
      rw [ReadError.place_map]
      conv => lhs; arg 1; rw [ht]
      exact offset_append before e'.place
    refine ⟨before, e'.place, ht, hp, ?_, hb.complete, (cause_map _ _ _ _).2 hc⟩
    rw [hp, ht, Text.byteSize_append]
    exact Nat.le_add_right _ _

/-- The name of no operation behind a character of two bytes. -/
theorem exists_cause_of_read_name :
    read "é.a.b(".toList = .error (.unknownOperation "a.b".toList 3) ∧
      ∃ before rest, "é.a.b(".toList = before ++ rest ∧ 3 = Text.byteSize before ∧
        3 ≤ Text.byteSize "é.a.b(".toList ∧ (lex before).2 = .complete ∧
          (ReadError.unknownOperation "a.b".toList 3).Cause before rest := by
  have hl : lex "é.a.b(".toList =
      ([⟨"é.a.b(".toList, .name ['é']⟩, ⟨".a.b(".toList, .dot⟩, ⟨"a.b(".toList, .name ['a']⟩,
        ⟨".b(".toList, .dot⟩, ⟨"b(".toList, .name ['b']⟩, ⟨['('], .leftParen⟩], .complete) := by
    decide +kernel
  have h : read "é.a.b(".toList = .error (.unknownOperation "a.b".toList 3) := by
    rw [read, hl]
    rfl
  exact ⟨h, exists_cause_of_read h⟩

end FluentRegex.Chain
