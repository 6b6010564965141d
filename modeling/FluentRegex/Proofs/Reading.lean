import FluentRegex.Chain.Read
import FluentRegex.Proofs.Printing

/-!
Reading a chain back from its text. A printed call shows its arguments or its callback and never
both, so what is read is the chain with the arguments of every call with a callback left out. The
reader is followed lexeme by lexeme; the places of the lexemes do not matter to what it accepts.
-/

namespace FluentRegex

mutual

/-- The call as its text shows it: a call with a callback has no other arguments. -/
def Call.shown : Call → Call
  | .plain o args => .plain o args
  | .callback o _ body => .callback o [] (Call.shownAll body)

def Call.shownAll : List Call → List Call
  | [] => []
  | c :: cs => c.shown :: Call.shownAll cs

end

mutual

/-- No call in it has both a callback and other arguments. -/
def Call.OneBody : Call → Prop
  | .plain _ _ => True
  | .callback _ args body => args = [] ∧ Call.AllOneBody body

def Call.AllOneBody : List Call → Prop
  | [] => True
  | c :: cs => c.OneBody ∧ Call.AllOneBody cs

end

mutual

theorem Call.shown_eq_iff : (c : Call) → (c.shown = c ↔ c.OneBody)
  | .plain o args => by simp [Call.shown, Call.OneBody]
  | .callback o args body => by
    rw [Call.shown, Call.OneBody, Call.callback.injEq, Call.shownAll_eq_iff body]
    exact ⟨fun ⟨_, h, h'⟩ => ⟨h.symm, h'⟩, fun ⟨h, h'⟩ => ⟨rfl, h.symm, h'⟩⟩

theorem Call.shownAll_eq_iff : (cs : List Call) → (Call.shownAll cs = cs ↔ Call.AllOneBody cs)
  | [] => by simp [Call.shownAll, Call.AllOneBody]
  | c :: cs => by
    rw [Call.shownAll, Call.AllOneBody, List.cons.injEq, c.shown_eq_iff, Call.shownAll_eq_iff cs]

end

namespace Chain

/-- The chain as its text shows it. -/
def shown (c : Chain) : Chain :=
  { c with calls := Call.shownAll c.calls }

theorem shown_eq_iff (c : Chain) : c.shown = c ↔ Call.AllOneBody c.calls := by
  rw [← Call.shownAll_eq_iff]
  obtain ⟨calls, flags⟩ := c
  simp [shown]

namespace State

/-- Wherever these lexemes stand, they lead from one state to the other. -/
def Reads (s : State) (ls : List Lexeme) (s' : State) : Prop :=
  ∀ located : List Located, located.map Located.lexeme = ls → s.run located = .ok s'

variable {s s' s'' : State} {ls ms : List Lexeme}

theorem Reads.nil (s : State) : s.Reads [] s := by
  intro located h
  rw [List.map_eq_nil_iff.1 h, run_nil]

/-- The state after a lexeme may depend on its place, as long as the state at the end does not. -/
theorem Reads.consAt {l : Lexeme} {f : Text → State}
    (h : ∀ place, s.step place l = .ok (f place)) (h' : ∀ place, (f place).Reads ls s'') :
    s.Reads (l :: ls) s'' := by
  intro located e
  obtain ⟨x, xs, rfl, rfl, rfl⟩ := List.map_eq_cons_iff.1 e
  rw [run_cons, h]
  exact h' x.place xs rfl

theorem Reads.cons {l : Lexeme} (h : ∀ place, s.step place l = .ok s') (h' : s'.Reads ls s'') :
    s.Reads (l :: ls) s'' :=
  .consAt h fun _ => h'

/-! ### Calls -/

variable (ns : Nesting) (cs : List Call)

theorem stepOpen_name (place : Text) (o : Operation) :
    stepOpen ns cs place o.name = .ok (argument ns ⟨cs, o, []⟩ none) := by
  have hd : o.name ≠ "done".toList := by
    intro e
    have := o.ofName?_name
    rw [e, Operation.ofName?_done] at this
    cases this
  rw [stepOpen, if_neg hd, o.ofName?_name]

/-- The name of an operation and the parenthesis after it open a call. -/
theorem reads_operation {o : Operation} (h : (argument ns ⟨cs, o, []⟩ none).Reads ls s') :
    (name ns cs).Reads (o.lexemes ++ .leftParen :: ls) s' := by
  rcases o.lexemes_cases with e | ⟨m, n, hn, e⟩
  · rw [e]
    refine .consAt (f := fun place => nameEnd ns cs place o.name) (fun _ => rfl) fun place => ?_
    exact .cons (fun _ => stepOpen_name ns cs place o) h
  · rw [e]
    refine .consAt (f := fun place => nameEnd ns cs place m) (fun _ => rfl) fun place => ?_
    refine .cons (fun _ => rfl) ?_
    refine .cons (fun _ => by rw [step, ← hn]) ?_
    exact .cons (fun _ => stepOpen_name ns cs place o) h

theorem step_argument (a : Argument) (c : OpenCall) (place : Text) :
    (argument ns c none).step place a.lexeme = .ok (separator ns (c.addArgument a) none) := by
  cases a <;> rfl

/-- Arguments and the parenthesis after them complete a call. -/
theorem reads_arguments (c : OpenCall) (args : List Argument)
    (h : (calls ns (c.before ++ [.plain c.operation (c.arguments ++ args)])).Reads ls s') :
    (argument ns c none).Reads (Argument.lexemes args ++ .rightParen :: ls) s' := by
  induction args generalizing c with
  | nil => exact .cons (fun _ => rfl) (by simpa [OpenCall.close, Call.ofParts] using h)
  | cons a args ih =>
    have ha := step_argument ns a c
    cases args with
    | nil => exact .cons ha <| .cons (fun _ => rfl) h
    | cons b args =>
      refine .cons ha <| .cons (fun _ => rfl) <| ih (c.addArgument a) ?_
      simpa [OpenCall.addArgument] using h

mutual

theorem reads_call : (c : Call) → (ns : Nesting) → (cs : List Call) → {ls : List Lexeme} →
    {s : State} → (calls ns (cs ++ [c.shown])).Reads ls s →
    (calls ns cs).Reads (.dot :: (c.lexemes ++ ls)) s
  | .plain o args, ns, cs, ls, s, h => by
    refine .cons (fun _ => rfl) ?_
    simpa [Call.lexemes] using reads_operation ns cs (reads_arguments ns ⟨cs, o, []⟩ args h)
  | .callback o args body, ns, cs, ls, s, h => by
    refine .cons (fun _ => rfl) ?_
    have hc : (calls (⟨true, ⟨cs, o, []⟩⟩ :: ns) ([] ++ Call.shownAll body)).Reads
        (.rightBrace :: .rightParen :: ls) s :=
      .cons (fun _ => rfl) <| .cons (fun _ => rfl) h
    have hb := reads_calls body _ [] hc
    have : (argument ns ⟨cs, o, []⟩ none).Reads (.leftParen :: .name Chain.root :: .rightParen ::
        .arrow :: .leftBrace :: .name Chain.root ::
          (callsLexemes body ++ .rightBrace :: .rightParen :: ls)) s :=
      .cons (fun _ => rfl) <| .cons (fun _ => rfl) <| .cons (fun _ => rfl) <|
        .cons (fun _ => rfl) <| .cons (fun _ => rfl) <| .cons (fun _ => rfl) hb
    simpa [Call.lexemes] using reads_operation ns cs this

/-- Calls are added to those of the list they stand in. -/
theorem reads_calls : (ds : List Call) → (ns : Nesting) → (cs : List Call) → {ls : List Lexeme} →
    {s : State} → (calls ns (cs ++ Call.shownAll ds)).Reads ls s →
    (calls ns cs).Reads (callsLexemes ds ++ ls) s
  | [], ns, cs, ls, s, h => by simpa [Call.shownAll, callsLexemes] using h
  | d :: ds, ns, cs, ls, s, h => by
    have := reads_calls ds ns (cs ++ [d.shown]) (by simpa [Call.shownAll] using h)
    simpa [callsLexemes] using reads_call d ns cs this

end

theorem reads_lexemes (c : Chain) :
    ∃ s, start.Reads c.lexemes s ∧ s.finish = .ok c.shown := by
  obtain ⟨cs, flags⟩ := c
  cases flags with
  | none =>
    refine ⟨calls [] (Call.shownAll cs), .cons (fun _ => rfl) ?_, rfl⟩
    exact reads_calls cs [] [] (.nil _)
  | some flags =>
    refine ⟨finished ⟨Call.shownAll cs, some flags⟩, .cons (fun _ => rfl) ?_, rfl⟩
    refine reads_calls cs [] [] (.cons (fun _ => rfl) ?_)
    refine .consAt (f := fun place => nameEnd [] _ place "done".toList) (fun _ => rfl) fun _ => ?_
    exact .cons (fun _ => rfl) <| .cons (fun _ => rfl) <| .cons (fun _ => rfl) <|
      .nil _

end State

/-- Any text with the lexemes of a chain reads as that chain. -/
theorem read_of_lexes {t : Text} {c : Chain} (h : Lexes t c.lexemes) : read t = .ok c.shown := by
  obtain ⟨s, hs, hf⟩ := State.reads_lexemes c
  simp only [read, ofLexemes, hs _ h.1, h.2, hf]
  rfl

/-- Reading the text of a chain succeeds for every chain and gives the chain that the text shows;
that is the chain itself exactly if no call in it has both a callback and other arguments. -/
theorem read_print (c : Chain) :
    read c.print = .ok c.shown ∧ (read c.print = .ok c ↔ Call.AllOneBody c.calls) := by
  have h := read_of_lexes (lexes_print c)
  exact ⟨h, by rw [h, Except.ok.injEq, shown_eq_iff]⟩

end Chain

end FluentRegex
