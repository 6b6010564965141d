import FluentRegex.Chain.Read
import FluentRegex.Proofs.Grammar
import FluentRegex.Proofs.Lexing

/-!
The reader of chains accepts what the grammar derives. Each state of the reader stands for the
lexemes that complete what has been read to a chain, said in terms of the grammar; a step goes from
a state to another exactly if its lexeme may come first, and from this a whole run follows.
-/

namespace FluentRegex.Chain.State

variable {ns : Nesting} {oc : OpenCall} {body : Option (List Call)} {cs : List Call}
variable {ls ms : List Lexeme} {c : Chain} {place : Text} {l : Lexeme}

/-- What may follow an item of a call: nothing, or a comma and more items. -/
inductive MoreItems : List Lexeme → List Item → List Lexeme → Prop
  | none (rest : List Lexeme) : MoreItems rest [] rest
  | comma {ls rest : List Lexeme} {is : List Item} (h : DerivesArguments ls is rest) :
      MoreItems (.comma :: ls) is rest

mutual

/-- The lexemes go on after calls in this nesting, with more calls at will, and complete the
chain. -/
inductive AfterCalls : Nesting → List Call → List Lexeme → Chain → Prop
  | intro {ns : Nesting} {cs ds : List Call} {ls ms : List Lexeme} {c : Chain}
      (h : DerivesCalls ls ds ms) (hc : Closes ns (cs ++ ds) ms c) : AfterCalls ns cs ls c

/-- The lexemes end a list of calls in this nesting and complete the chain. -/
inductive Closes : Nesting → List Call → List Lexeme → Chain → Prop
  | chain {cs : List Call} {ls ms : List Lexeme} {flags : Option Text}
      (h : DerivesDone ls flags ms) (hs : Optionally .semicolon ms []) :
      Closes [] cs ls ⟨cs, flags⟩
  | braced {ns : Nesting} {oc : OpenCall} {cs : List Call} {ls ms : List Lexeme} {c : Chain}
      (hs : Optionally .semicolon ls (.rightBrace :: ms)) (h : AfterItem ns oc (some cs) ms c) :
      Closes (⟨true, oc⟩ :: ns) cs ls c
  | bare {ns : Nesting} {oc : OpenCall} {cs : List Call} {ls : List Lexeme} {c : Chain}
      (h : AfterItem ns oc (some cs) ls c) : Closes (⟨false, oc⟩ :: ns) cs ls c

/-- The lexemes go on after an item of an open call and complete the chain. -/
inductive AfterItem : Nesting → OpenCall → Option (List Call) → List Lexeme → Chain → Prop
  | intro {ns : Nesting} {oc : OpenCall} {body : Option (List Call)} {is : List Item}
      {ls ms : List Lexeme} {c : Chain} (hm : MoreItems ls is (.rightParen :: ms))
      (hb : (body.toList ++ Item.bodies is).length ≤ 1)
      (h : AfterCalls ns (oc.before ++ [Call.ofParts oc.operation
        (oc.arguments ++ Item.arguments is) (body.toList ++ Item.bodies is).head?]) ms c) :
      AfterItem ns oc body ls c

end

/-- The lexemes go on with the body of a callback and complete the chain. -/
def AtBody (ns : Nesting) (oc : OpenCall) (ls : List Lexeme) (c : Chain) : Prop :=
  ∃ cs ms, DerivesBody ls cs ms ∧ AfterItem ns oc (some cs) ms c

/-- The lexemes start with the root of a body or of the whole chain, which only in braces may stand
after `return`. -/
def AtRoot : Nesting → List Lexeme → List Lexeme → Prop
  | ⟨true, _⟩ :: _, ls, ms => DerivesRoot ls ms
  | _, ls, ms => ∃ t, ls = .name t :: ms

/-- The lexemes complete what has been read in this state to the chain. Where a name or the flags
are being read, and after a comma, this is said of the lexemes from the dot or the comma on. -/
def Completes : State → List Lexeme → Chain → Prop
  | root ns, ls, c => ∃ ms, AtRoot ns ls ms ∧ AfterCalls ns [] ms c
  | returned ns, ls, c => ∃ t ms, ls = .name t :: ms ∧ AfterCalls ns [] ms c
  | calls ns cs, ls, c => AfterCalls ns cs ls c
  | name ns cs, ls, c => AfterCalls ns cs (.dot :: ls) c
  | namePart ns cs _ t, ls, c => AfterCalls ns cs (.dot :: .name t :: .dot :: ls) c
  | nameEnd ns cs _ t, ls, c => AfterCalls ns cs (.dot :: .name t :: ls) c
  | flags cs, ls, c => Closes [] cs (.dot :: .name "done".toList :: .leftParen :: ls) c
  | flagsEnd cs t, ls, c =>
    Closes [] cs (.dot :: .name "done".toList :: .leftParen :: .text t :: ls) c
  | finished chain, ls, c => c = chain ∧ Optionally .semicolon ls []
  | terminated chain, ls, c => c = chain ∧ ls = []
  | argument ns oc body, ls, c => AfterItem ns oc body (.comma :: ls) c
  | separator ns oc body, ls, c => AfterItem ns oc body ls c
  | parameter ns oc, ls, c => ∃ t ms, ls = .name t :: .rightParen :: .arrow :: ms ∧ AtBody ns oc ms c
  | parameterEnd ns oc, ls, c => ∃ ms, ls = .rightParen :: .arrow :: ms ∧ AtBody ns oc ms c
  | arrow ns oc, ls, c => ∃ ms, ls = .arrow :: ms ∧ AtBody ns oc ms c
  | callback ns oc, ls, c => AtBody ns oc ls c
  | callbackEnd ns oc cs, ls, c => ∃ ms, ls = .rightBrace :: ms ∧ AfterItem ns oc (some cs) ms c

/-! ### Calls -/

theorem afterCalls_iff :
    AfterCalls ns cs ls c ↔
      Closes ns cs ls c ∨ ∃ d ms, DerivesCall ls d ms ∧ AfterCalls ns (cs ++ [d]) ms c := by
  constructor
  · rintro ⟨h, hc⟩
    cases h with
    | nil => exact .inl (by simpa using hc)
    | cons h h' => exact .inr ⟨_, _, h, .intro h' (by simpa using hc)⟩
  · rintro (hc | ⟨d, ms, h, ⟨h', hc⟩⟩)
    · exact .intro (.nil _) (by simpa using hc)
    · exact .intro (.cons h h') (by simpa using hc)

theorem afterCalls_of_ne_dot (h : ls.head? ≠ some .dot) :
    AfterCalls ns cs ls c ↔ Closes ns cs ls c := by
  rw [afterCalls_iff, or_iff_left]
  rintro ⟨d, ms, ⟨⟩, -⟩
  exact h rfl

/-! ### Items -/

theorem derivesArguments_iff {is : List Item} {rest : List Lexeme} :
    DerivesArguments ls is rest ↔
      (ls = rest ∧ is = []) ∨
      ∃ i js ms, is = i :: js ∧ DerivesItem ls i ms ∧ MoreItems ms js rest := by
  constructor
  · rintro (_ | ⟨⟨h⟩ | ⟨h, h'⟩, hc⟩)
    · exact .inl ⟨rfl, rfl⟩
    · rcases hc with rfl | rfl
      · exact .inr ⟨_, _, _, rfl, h, .none _⟩
      · exact .inr ⟨_, _, _, rfl, h, .comma (.none _)⟩
    · exact .inr ⟨_, _, _, rfl, h, .comma (.some h' hc)⟩
  · rintro (⟨rfl, rfl⟩ | ⟨i, js, ms, rfl, h, _ | _ | ⟨h', hc⟩⟩)
    · exact .none _
    · exact .some (.one h) (.inl rfl)
    · exact .some (.one h) (.inr rfl)
    · exact .some (.cons h h') hc

theorem afterItem_rightParen :
    AfterItem ns oc body (.rightParen :: ls) c ↔ AfterCalls ns (oc.close body) ls c := by
  constructor
  · rintro ⟨⟨⟩, -, h⟩
    simpa [OpenCall.close] using h
  · intro h
    refine .intro (.none _) ?_ (by simpa [OpenCall.close] using h)
    cases body <;> simp

/-- After a comma, or the parenthesis of a call, the call ends or there is one more item. -/
theorem afterItem_comma :
    AfterItem ns oc body (.comma :: ls) c ↔
      (∃ ms, ls = .rightParen :: ms ∧ AfterCalls ns (oc.close body) ms c) ∨
      (∃ a ms, DerivesItem ls (.argument a) ms ∧ AfterItem ns (oc.addArgument a) body ms c) ∨
      (∃ cs ms, DerivesItem ls (.callback cs) ms ∧ body = none ∧
        AfterItem ns oc (some cs) ms c) := by
  constructor
  · rintro ⟨⟨⟩ | ⟨ha⟩, hb, h⟩
    rcases derivesArguments_iff.1 ha with ⟨rfl, rfl⟩ | ⟨i, js, ms, rfl, hi, hm⟩
    · exact .inl ⟨_, rfl, by simpa [OpenCall.close] using h⟩
    · cases i with
      | argument a =>
        refine .inr (.inl ⟨a, ms, hi, .intro hm hb ?_⟩)
        simpa [OpenCall.addArgument] using h
      | callback cs =>
        cases body with
        | some body => simp at hb
        | none => exact .inr (.inr ⟨cs, ms, hi, rfl, .intro hm hb h⟩)
  · rintro (⟨ms, rfl, h⟩ | ⟨a, ms, hi, ⟨hm, hb, h⟩⟩ | ⟨cs, ms, hi, rfl, ⟨hm, hb, h⟩⟩)
    · refine .intro (.comma (.none _)) ?_
        (by simpa [OpenCall.close] using h)
      cases body <;> simp
    · refine .intro (.comma (derivesArguments_iff.2 (.inr ⟨_, _, _, rfl, hi, hm⟩))) hb ?_
      simpa [OpenCall.addArgument] using h
    · exact .intro (.comma (derivesArguments_iff.2 (.inr ⟨_, _, _, rfl, hi, hm⟩))) hb h

/-! ### Items by their first lexeme -/

theorem derivesItem_number {n : UInt32} {i : Item} :
    DerivesItem (.number n :: ls) i ms ↔ i = .argument (.number n) ∧ ms = ls := by
  constructor
  · rintro ⟨⟩
    exact ⟨rfl, rfl⟩
  · rintro ⟨rfl, rfl⟩
    exact .number n _

theorem derivesItem_text {t : Text} {i : Item} :
    DerivesItem (.text t :: ls) i ms ↔ i = .argument (.text t) ∧ ms = ls := by
  constructor
  · rintro ⟨⟩
    exact ⟨rfl, rfl⟩
  · rintro ⟨rfl, rfl⟩
    exact .text t _

theorem derivesItem_name {t : Text} {i : Item} :
    DerivesItem (.name t :: ls) i ms ↔
      ∃ cs os, i = .callback cs ∧ ls = .arrow :: os ∧ DerivesBody os cs ms := by
  constructor
  · rintro (_ | _ | _ | ⟨_, h⟩)
    exact ⟨_, _, rfl, rfl, h⟩
  · rintro ⟨cs, os, rfl, rfl, h⟩
    exact .bare t h

theorem derivesItem_leftParen {i : Item} :
    DerivesItem (.leftParen :: ls) i ms ↔
      ∃ t cs os, i = .callback cs ∧ ls = .name t :: .rightParen :: .arrow :: os ∧
        DerivesBody os cs ms := by
  constructor
  · rintro (_ | _ | ⟨t, h⟩ | _)
    exact ⟨t, _, _, rfl, rfl, h⟩
  · rintro ⟨t, cs, os, rfl, rfl, h⟩
    exact .parenthesised t h

/-! ### Names -/

theorem derivesName_leftParen {t u : Text} :
    DerivesName (.name t :: .leftParen :: ls) u (.leftParen :: ms) ↔ t = u ∧ ls = ms := by
  constructor
  · rintro ⟨⟩
    exact ⟨rfl, rfl⟩
  · rintro ⟨rfl, rfl⟩
    exact .part t _

/-- The parts of a name can be joined before it is read on. -/
theorem derivesName_joined {t u v : Text} :
    DerivesName (.name (t ++ '.' :: u) :: ls) v (.leftParen :: ms) ↔
      DerivesName (.name t :: .dot :: .name u :: ls) v (.leftParen :: ms) := by
  constructor
  · rintro (_ | ⟨_, h⟩)
    · exact .dotted t (.part u _)
    · simpa using DerivesName.dotted t (.dotted u h)
  · rintro (_ | ⟨_, _ | ⟨_, h⟩⟩)
    · exact .part _ _
    · simpa using DerivesName.dotted (t ++ '.' :: u) h

/-- A dot after calls starts another call, or the one that gives the flags. -/
theorem afterCalls_dot :
    AfterCalls ns cs (.dot :: ls) c ↔
      (∃ t o ms, DerivesName ls t (.leftParen :: ms) ∧ t ≠ "done".toList ∧
        Operation.ofName? t = some o ∧ AfterItem ns ⟨cs, o, []⟩ none (.comma :: ms) c) ∨
      (ns = [] ∧ ∃ ms, ls = .name "done".toList :: .leftParen :: ms ∧
        Closes [] cs (.dot :: ls) c) := by
  rw [afterCalls_iff]
  constructor
  · rintro (hc | ⟨d, ms, ⟨hn, hd, ho, hi, hb⟩, h⟩)
    · refine .inr ?_
      cases hc with
      | chain h hs =>
        cases h with
        | absent => rcases hs with e | e <;> cases e
        | done h => exact ⟨rfl, _, rfl, .chain (.done h) hs⟩
      | braced hs => rcases hs with e | e <;> cases e
      | bare h =>
        obtain ⟨⟨⟩, -, -⟩ := h
    · exact .inl ⟨_, _, _, hn, hd, ho, .intro (.comma hi) hb h⟩
  · rintro (⟨t, o, ms, hn, hd, ho, ⟨_ | ⟨hi⟩, hb, h⟩⟩ | ⟨rfl, ms, rfl, h⟩)
    · exact .inr ⟨_, _, .call hn hd ho hi hb, h⟩
    · exact .inl h

/-! ### The end of a list of calls -/

/-- Where no dot follows, the calls of a chain may only be followed by a semicolon. -/
theorem closes_chain (h : ls.head? ≠ some .dot) :
    Closes [] cs ls c ↔ c = ⟨cs, none⟩ ∧ Optionally .semicolon ls [] := by
  constructor
  · rintro ⟨⟨⟩ | ⟨⟩, hs⟩
    · exact ⟨rfl, hs⟩
    · exact absurd rfl h
  · rintro ⟨rfl, hs⟩
    exact .chain (.absent _) hs

theorem closes_braced :
    Closes (⟨true, oc⟩ :: ns) cs ls c ↔
      ∃ ms, Optionally .semicolon ls (.rightBrace :: ms) ∧ AfterItem ns oc (some cs) ms c := by
  constructor
  · rintro ⟨⟩
    exact ⟨_, ‹_›, ‹_›⟩
  · rintro ⟨ms, hs, h⟩
    exact .braced hs h

theorem closes_bare : Closes (⟨false, oc⟩ :: ns) cs ls c ↔ AfterItem ns oc (some cs) ls c := by
  constructor
  · rintro ⟨⟩
    assumption
  · exact .bare

/-- The call that gives the flags has a text or nothing between its parentheses. -/
theorem closes_done :
    Closes [] cs (.dot :: .name "done".toList :: .leftParen :: ls) c ↔
      ∃ flags ms, DerivesFlags ls flags (.rightParen :: ms) ∧ Optionally .semicolon ms [] ∧
        c = ⟨cs, some flags⟩ := by
  constructor
  · rintro ⟨⟨⟩ | ⟨h⟩, hs⟩
    · rcases hs with e | e <;> cases e
    · exact ⟨_, _, h, hs, rfl⟩
  · rintro ⟨flags, ms, h, hs, rfl⟩
    exact .chain (.done h) hs

theorem derivesRoot_name {t : Text} :
    DerivesRoot (.name t :: ls) ms ↔
      if t = "return".toList then ∃ u, ls = .name u :: ms else ls = ms := by
  constructor
  · rintro (⟨ht⟩ | ⟨u⟩)
    · rw [if_neg ht]
    · rw [if_pos rfl]
      exact ⟨u, rfl⟩
  · split
    · next ht =>
      rintro ⟨u, rfl⟩
      exact ht ▸ .returned u ms
    · next ht =>
      rintro rfl
      exact .name ht ls

/-! ### Callbacks -/

theorem atBody_leftBrace :
    AtBody ns oc (.leftBrace :: ls) c ↔
      ∃ ms, DerivesRoot ls ms ∧ AfterCalls (⟨true, oc⟩ :: ns) [] ms c := by
  constructor
  · rintro ⟨cs, ms, ⟨hr, hc, hs⟩ | _, h⟩
    exact ⟨_, hr, .intro hc (.braced hs h)⟩
  · rintro ⟨ms, hr, ⟨hc, h⟩⟩
    obtain ⟨os, hs, h⟩ := closes_braced.1 h
    exact ⟨_, os, .braced hr hc hs, h⟩

theorem atBody_name {t : Text} :
    AtBody ns oc (.name t :: ls) c ↔ AfterCalls (⟨false, oc⟩ :: ns) [] ls c := by
  constructor
  · rintro ⟨cs, ms, _ | ⟨_, hc⟩, h⟩
    exact .intro hc (.bare h)
  · rintro ⟨hc, h⟩
    exact ⟨_, _, .bare t hc, closes_bare.1 h⟩

/-! ### Steps -/

/-- A step has led to a state that the lexemes complete to the chain. -/
def Continues (r : Except (ReadError Text) State) (ls : List Lexeme) (c : Chain) : Prop :=
  ∃ s, r = .ok s ∧ s.Completes ls c

@[simp] theorem continues_ok {s : State} : Continues (.ok s) ls c ↔ s.Completes ls c := by
  simp [Continues]

@[simp] theorem not_continues_error {e : ReadError Text} : ¬Continues (.error e) ls c := by
  simp [Continues]

theorem completes_root :
    (root ns).Completes (l :: ls) c ↔ Continues ((root ns).step place l) ls c := by
  rcases ns with _ | ⟨⟨_ | _, oc⟩, ns⟩
  · cases l <;> simp [Completes, AtRoot, step]
  · cases l <;> simp [Completes, AtRoot, step]
  · cases l with
    | name t =>
      by_cases ht : t = "return".toList
      · simp only [Completes, AtRoot, step, derivesRoot_name, if_pos ht, continues_ok]
        grind
      · simp only [Completes, AtRoot, step, derivesRoot_name, if_neg ht, continues_ok]
        grind
    | _ =>
      simp only [Completes, AtRoot, step, not_continues_error, iff_false]
      rintro ⟨ms, ⟨⟩, -⟩

theorem completes_returned :
    (returned ns).Completes (l :: ls) c ↔ Continues ((returned ns).step place l) ls c := by
  cases l with
  | name t =>
    simp only [Completes, step, continues_ok]
    grind
  | _ => simp [Completes, step]

theorem completes_separator :
    (separator ns oc body).Completes (l :: ls) c ↔
      Continues (stepSeparator ns oc body place l) ls c := by
  cases l with
  | rightParen => simpa [Completes, stepSeparator] using afterItem_rightParen
  | comma => simp [Completes, stepSeparator]
  | _ =>
    simp only [Completes, stepSeparator, not_continues_error, iff_false]
    rintro ⟨⟨⟩, -, -⟩

theorem completes_calls :
    (calls ns cs).Completes (l :: ls) c ↔ Continues ((calls ns cs).step place l) ls c := by
  by_cases hl : l = .dot
  · subst hl
    simp [Completes, step]
  have hd : (l :: ls).head? ≠ some .dot := by simpa using hl
  have hs : (calls ns cs).step place l = stepEnd cs place ns l := by
    rw [step]
    exact hl
  rw [hs, Completes, afterCalls_of_ne_dot hd]
  rcases ns with _ | ⟨⟨_ | _, oc⟩, ns⟩
  · rw [closes_chain hd]
    cases l <;> simp [stepEnd, Optionally, Completes]
  · rw [closes_bare]
    exact completes_separator
  · rw [closes_braced]
    cases l <;> simp [stepEnd, Optionally, Completes]

theorem completes_name :
    (name ns cs).Completes (l :: ls) c ↔ Continues ((name ns cs).step place l) ls c := by
  cases l with
  | name t => simp [Completes, step]
  | _ =>
    simp only [Completes, step, not_continues_error, iff_false, afterCalls_dot]
    rintro (⟨t, o, ms, ⟨⟩, -⟩ | ⟨-, ms, ⟨⟩, -⟩)

theorem completes_namePart {first t : Text} :
    (namePart ns cs first t).Completes (l :: ls) c ↔
      Continues ((namePart ns cs first t).step place l) ls c := by
  cases l with
  | name u =>
    have hd : t ++ '.' :: u ≠ "done".toList := fun e => by
      have : '.' ∈ "done".toList := e ▸ by simp
      revert this
      decide
    simp only [Completes, step, continues_ok, afterCalls_dot, derivesName_joined]
    simp only [List.cons.injEq, Lexeme.name.injEq, hd, false_and, and_false, exists_false, or_false,
      reduceCtorEq]
  | _ =>
    simp only [Completes, step, not_continues_error, iff_false, afterCalls_dot]
    rintro (⟨t, o, ms, h, -⟩ | ⟨-, ms, ⟨⟩, -⟩)
    rcases h with _ | ⟨_, ⟨⟩⟩

/-- The parenthesis after a name opens the call of an operation, or the one that gives the flags. -/
theorem completes_stepOpen {first t : Text} :
    AfterCalls ns cs (.dot :: .name t :: .leftParen :: ls) c ↔
      Continues (stepOpen ns cs first t) ls c := by
  simp only [afterCalls_dot, derivesName_leftParen]
  rw [stepOpen]
  split
  · next ht =>
    subst ht
    cases ns with
    | nil =>
      simp only [List.isEmpty_nil, if_true, continues_ok, Completes]
      grind
    | cons f ns =>
      simp only [List.isEmpty_cons, Bool.false_eq_true, if_false, not_continues_error, iff_false]
      grind
  · next ht =>
    split
    · next o ho =>
      simp only [continues_ok, Completes]
      grind
    · next ho =>
      simp only [not_continues_error, iff_false]
      grind

theorem completes_nameEnd {first t : Text} :
    (nameEnd ns cs first t).Completes (l :: ls) c ↔
      Continues ((nameEnd ns cs first t).step place l) ls c := by
  cases l with
  | dot => simp [Completes, step]
  | leftParen => exact completes_stepOpen
  | _ =>
    simp only [Completes, step, not_continues_error, iff_false, afterCalls_dot]
    rintro (⟨t, o, ms, ⟨⟩, -⟩ | ⟨-, ms, ⟨⟩, -⟩)

theorem completes_flags :
    (flags cs).Completes (l :: ls) c ↔ Continues ((flags cs).step place l) ls c := by
  cases l with
  | rightParen =>
    simp only [Completes, step, continues_ok, closes_done]
    constructor
    · rintro ⟨_, _, ⟨⟩, hs, rfl⟩
      exact ⟨rfl, hs⟩
    · rintro ⟨rfl, hs⟩
      exact ⟨_, _, .none _, hs, rfl⟩
  | text t => simp [Completes, step]
  | _ =>
    simp only [Completes, step, not_continues_error, iff_false, closes_done]
    rintro ⟨flags, ms, ⟨⟩, -⟩

theorem completes_flagsEnd {t : Text} :
    (flagsEnd cs t).Completes (l :: ls) c ↔ Continues ((flagsEnd cs t).step place l) ls c := by
  cases l with
  | rightParen =>
    simp only [Completes, step, continues_ok, closes_done]
    constructor
    · rintro ⟨_, _, ⟨⟩, hs, rfl⟩
      exact ⟨rfl, hs⟩
    · rintro ⟨rfl, hs⟩
      exact ⟨_, _, .some _ _, hs, rfl⟩
  | _ =>
    simp only [Completes, step, not_continues_error, iff_false, closes_done]
    rintro ⟨flags, ms, ⟨⟩, -⟩

theorem completes_finished {chain : Chain} :
    (finished chain).Completes (l :: ls) c ↔
      Continues ((finished chain).step place l) ls c := by
  cases l <;> simp [Completes, step, Optionally]

theorem completes_terminated {chain : Chain} :
    (terminated chain).Completes (l :: ls) c ↔
      Continues ((terminated chain).step place l) ls c := by
  simp [Completes, step]

theorem completes_argument :
    (argument ns oc body).Completes (l :: ls) c ↔
      Continues (stepArgument ns oc place body l) ls c := by
  rw [Completes, afterItem_comma]
  -- A callback is an argument only where the call has none yet, so those cases split on `body` too.
  cases l with
  | rightParen =>
    change _ ↔ Continues (.ok (calls ns (oc.close body))) ls c
    simp only [continues_ok, Completes]
    constructor
    · rintro (⟨_, ⟨⟩, h⟩ | ⟨_, _, ⟨⟩, -⟩ | ⟨_, _, ⟨⟩, -⟩)
      exact h
    · exact fun h => .inl ⟨_, rfl, h⟩
  | number n =>
    change _ ↔ Continues (.ok (separator ns (oc.addArgument (.number n)) body)) ls c
    simp [derivesItem_number, Completes, and_assoc]
  | text t =>
    change _ ↔ Continues (.ok (separator ns (oc.addArgument (.text t)) body)) ls c
    simp [derivesItem_text, Completes, and_assoc]
  | name t =>
    cases body with
    | some body =>
      change _ ↔ Continues (.error (.expected .argument place)) ls c
      simp [derivesItem_name]
    | none =>
      change _ ↔ Continues (.ok (arrow ns oc)) ls c
      simp only [derivesItem_name, continues_ok, Completes, AtBody]
      grind
  | leftParen =>
    cases body with
    | some body =>
      change _ ↔ Continues (.error (.expected .argument place)) ls c
      simp [derivesItem_leftParen]
    | none =>
      change _ ↔ Continues (.ok (parameter ns oc)) ls c
      simp only [derivesItem_leftParen, continues_ok, Completes, AtBody]
      grind
  | _ =>
    change _ ↔ Continues (.error (.expected .argument place)) ls c
    simp only [not_continues_error, iff_false]
    rintro (⟨_, ⟨⟩, -⟩ | ⟨_, _, ⟨⟩, -⟩ | ⟨_, _, ⟨⟩, -⟩)

theorem completes_parameter :
    (parameter ns oc).Completes (l :: ls) c ↔
      Continues ((parameter ns oc).step place l) ls c := by
  cases l with
  | name t =>
    simp only [Completes, step, continues_ok, List.cons.injEq]
    grind
  | _ => simp [Completes, step]

theorem completes_parameterEnd :
    (parameterEnd ns oc).Completes (l :: ls) c ↔
      Continues ((parameterEnd ns oc).step place l) ls c := by
  cases l <;> simp [Completes, step]

theorem completes_arrow :
    (arrow ns oc).Completes (l :: ls) c ↔ Continues ((arrow ns oc).step place l) ls c := by
  cases l <;> simp [Completes, step]

theorem completes_callback :
    (callback ns oc).Completes (l :: ls) c ↔ Continues ((callback ns oc).step place l) ls c := by
  cases l with
  | leftBrace => simpa [step, Completes, AtRoot] using atBody_leftBrace
  | name t => simpa [step, Completes] using atBody_name
  | _ =>
    simp only [Completes, step, not_continues_error, iff_false]
    rintro ⟨cs, ms, ⟨⟩, -⟩

theorem completes_callbackEnd :
    (callbackEnd ns oc cs).Completes (l :: ls) c ↔
      Continues ((callbackEnd ns oc cs).step place l) ls c := by
  cases l <;> simp [Completes, step]

/-- A lexeme may come first in what completes a state exactly if it leads to a state that the rest
completes. -/
theorem completes_cons (s : State) (place : Text) :
    s.Completes (l :: ls) c ↔ Continues (s.step place l) ls c := by
  cases s with
  | root ns => exact completes_root
  | returned ns => exact completes_returned
  | calls ns cs => exact completes_calls
  | name ns cs => exact completes_name
  | namePart ns cs first t => exact completes_namePart
  | nameEnd ns cs first t => exact completes_nameEnd
  | flags cs => exact completes_flags
  | flagsEnd cs t => exact completes_flagsEnd
  | finished chain => exact completes_finished
  | terminated chain => exact completes_terminated
  | argument ns oc body => exact completes_argument
  | separator ns oc body => exact completes_separator
  | parameter ns oc => exact completes_parameter
  | parameterEnd ns oc => exact completes_parameterEnd
  | arrow ns oc => exact completes_arrow
  | callback ns oc => exact completes_callback
  | callbackEnd ns oc cs => exact completes_callbackEnd

/-- Nothing more is needed exactly where the chain is complete. -/
theorem completes_nil (s : State) : s.Completes [] c ↔ s.finish = .ok c := by
  cases s with
  | calls ns cs =>
    have hd : ([] : List Lexeme).head? ≠ some .dot := by simp
    rw [Completes, afterCalls_of_ne_dot hd]
    rcases ns with _ | ⟨⟨_ | _, oc⟩, ns⟩
    · rw [closes_chain hd]
      simp [Optionally, finish, eq_comm]
    · simp only [closes_bare, finish, reduceCtorEq, iff_false]
      rintro ⟨⟨⟩, -, -⟩
    · simp [closes_braced, Optionally, finish]
  | finished chain => simp [Completes, Optionally, finish, eq_comm]
  | terminated chain => simp [Completes, finish, eq_comm]
  | root ns =>
    simp only [Completes, finish, reduceCtorEq, iff_false]
    rcases ns with _ | ⟨⟨_ | _, oc⟩, ns⟩
    · rintro ⟨ms, ⟨t, ⟨⟩⟩, -⟩
    · rintro ⟨ms, ⟨t, ⟨⟩⟩, -⟩
    · rintro ⟨ms, ⟨⟩, -⟩
  | name ns cs =>
    simp only [Completes, finish, reduceCtorEq, iff_false, afterCalls_dot]
    rintro (⟨t, o, ms, ⟨⟩, -⟩ | ⟨-, ms, ⟨⟩, -⟩)
  | namePart ns cs first t =>
    simp only [Completes, finish, reduceCtorEq, iff_false, afterCalls_dot]
    rintro (⟨t, o, ms, _ | ⟨_, ⟨⟩⟩, -⟩ | ⟨-, ms, ⟨⟩, -⟩)
  | nameEnd ns cs first t =>
    simp only [Completes, finish, reduceCtorEq, iff_false, afterCalls_dot]
    rintro (⟨t, o, ms, ⟨⟩, -⟩ | ⟨-, ms, ⟨⟩, -⟩)
  | flags cs | flagsEnd cs t =>
    simp only [Completes, finish, reduceCtorEq, iff_false, closes_done]
    rintro ⟨flags, ms, ⟨⟩, -⟩
  | argument ns oc body =>
    simp only [Completes, finish, reduceCtorEq, iff_false, afterItem_comma]
    rintro (⟨_, ⟨⟩, -⟩ | ⟨_, _, ⟨⟩, -⟩ | ⟨_, _, ⟨⟩, -⟩)
  | separator ns oc body =>
    simp only [Completes, finish, reduceCtorEq, iff_false]
    rintro ⟨⟨⟩, -, -⟩
  | callback ns oc =>
    simp only [Completes, finish, reduceCtorEq, iff_false]
    rintro ⟨cs, ms, ⟨⟩, -⟩
  | _ => simp [Completes, finish]

/-- Lexemes complete a state exactly if they can be read from it to a state where the chain is
complete. -/
theorem completes_iff (s : State) (located : List Located) :
    s.Completes (located.map Located.lexeme) c ↔
      ∃ s', s.run located = .ok s' ∧ s'.finish = .ok c := by
  induction located generalizing s with
  | nil => simp [completes_nil]
  | cons x xs ih =>
    rw [List.map_cons, completes_cons s x.place, run_cons]
    cases s.step x.place x.lexeme with
    | ok s' => rw [continues_ok, ih]
    | error e => simp

theorem completes_start : start.Completes ls c ↔ DerivesChain ls c := by
  constructor
  · rintro ⟨ms, ⟨t, rfl⟩, ⟨hc, h⟩⟩
    cases h with
    | chain hd hs => exact .chain t hc hd hs
  · rintro ⟨t, hc, hd, hs⟩
    exact ⟨_, ⟨t, rfl⟩, .intro hc (.chain hd hs)⟩

/-- The grammar derives a chain exactly if the reader goes through its lexemes, wherever they stand,
and finds that chain complete. -/
theorem derivesChain_iff (located : List Located) :
    DerivesChain (located.map Located.lexeme) c ↔
      ∃ s, start.run located = .ok s ∧ s.finish = .ok c :=
  completes_start.symm.trans (completes_iff start located)

end State

/-- The grammar is unambiguous. -/
theorem DerivesChain.unique {ls : List Lexeme} {c d : Chain} (hc : DerivesChain ls c)
    (hd : DerivesChain ls d) : c = d := by
  have hl : ls = (ls.map (Located.mk [])).map Located.lexeme := by simp [Function.comp_def]
  rw [hl, State.derivesChain_iff] at hc hd
  obtain ⟨s, hs, hc⟩ := hc
  obtain ⟨s', hs', hd⟩ := hd
  obtain rfl : s = s' := Except.ok.inj (hs.symm.trans hs')
  exact Except.ok.inj (hc.symm.trans hd)

theorem mapError_eq_ok_iff {α ε ε' : Type} {x : Except ε α} {f : ε → ε'} {a : α} :
    x.mapError f = .ok a ↔ x = .ok a := by
  cases x with
  | ok b =>
    change Except.ok b = Except.ok a ↔ _
    simp
  | error e => exact ⟨nofun, nofun⟩

/-- A text reads as a chain exactly if it consists of lexemes from which the grammar derives that
chain. -/
theorem read_eq_ok_iff (t : Text) (c : Chain) :
    read t = .ok c ↔ ∃ ls, Lexes t ls ∧ DerivesChain ls c := by
  have hl : (∃ ls, Lexes t ls ∧ DerivesChain ls c) ↔
      (lex t).2 = .complete ∧ DerivesChain ((lex t).1.map Located.lexeme) c := by
    simp only [Lexes, and_assoc, exists_eq_left']
  rw [hl, State.derivesChain_iff, read, mapError_eq_ok_iff, ofLexemes]
  cases State.start.run (lex t).1 with
  | error e => simp
  | ok s =>
    cases (lex t).2 with
    | fault place e => simp
    | complete => simp [mapError_eq_ok_iff]

end FluentRegex.Chain
