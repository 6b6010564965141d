import FluentRegex.Proofs.Layout

/-!
How the lines of a printed chain are nested. The layout counts levels up where a body starts and
down where one ends, and knows nothing of the calls in between. On a printed chain the counts fit
the tree: every call has one line, every body ends at the depth of the call that it belongs to, and
the depth is never too small to go down. What is followed along the lines or segments, the calls of
a body leave as they found it, so the induction is on the calls with whatever stands around them.
-/

namespace FluentRegex

/-! ### One line for each call -/

namespace Call

/-- The line that names a call which stands at a depth. -/
def line (depth : Nat) : Call → Chain.Line
  | .plain o args => ⟨depth, '.' :: print (.plain o args)⟩
  | .callback o _ _ => ⟨depth, '.' :: Chain.callOpening o⟩

mutual

/-- A call at a depth and, after it, the calls of its body with theirs. -/
def inOrder (depth : Nat) : Call → List (Nat × Call)
  | .plain o args => [(depth, .plain o args)]
  | .callback o args body => (depth, .callback o args body) :: allInOrder (depth + 2) body

def allInOrder (depth : Nat) : List Call → List (Nat × Call)
  | [] => []
  | c :: cs => c.inOrder depth ++ allInOrder depth cs

end

end Call

namespace Chain

def Line.namesCall (l : Line) : Bool :=
  l.text.head? == some '.'

mutual

theorem filter_callLines : (c : Call) → (depth : Nat) →
    (c.lines depth).filter Line.namesCall = (c.inOrder depth).map fun p => p.2.line p.1
  | .plain o args, depth => rfl
  | .callback o args body, depth => by
    have hc : Line.namesCall ⟨depth, '.' :: callOpening o⟩ = true := rfl
    have hr : ¬ Line.namesCall ⟨depth + 1, root⟩ = true := Bool.false_ne_true
    have he : [(⟨depth, bodyEnd⟩ : Line)].filter Line.namesCall = [] := rfl
    rw [Call.lines, List.filter_cons_of_pos hc, List.filter_cons_of_neg hr, List.filter_append, he,
      List.append_nil, filter_callsLines body]
    rfl

theorem filter_callsLines : (cs : List Call) → (depth : Nat) →
    (callsLines depth cs).filter Line.namesCall =
      (Call.allInOrder depth cs).map fun p => p.2.line p.1
  | [], depth => rfl
  | c :: cs, depth => by
    rw [callsLines, List.filter_append, filter_callLines c, filter_callsLines cs, Call.allInOrder,
      List.map_append]

end

theorem filter_doneLines (flags : Option Text) :
    (doneLines flags).filter Line.namesCall = doneLines flags := by
  cases flags <;> rfl

/-! ### No line feed in a line -/

theorem feed_notMem_name (o : Operation) : '\n' ∉ o.name := by
  have h : ∀ o ∈ Operation.all, '\n' ∉ o.name := by decide
  exact h o o.mem_all

theorem feed_notMem_quoted (t : Text) : '\n' ∉ quoted t := by
  have hc : ∀ c, '\n' ∉ quotedChar c := by
    intro c
    unfold quotedChar
    split_ifs <;> simp_all [eq_comm]
  simpa [quoted] using fun c _ => hc c

theorem feed_notMem_argument (a : Argument) : '\n' ∉ a.print := by
  cases a with
  | number n => exact fun m => absurd (Text.isDigit_of_mem_numeral m) (by decide)
  | text t => exact feed_notMem_quoted t

theorem feed_notMem_arguments (args : List Argument) :
    '\n' ∉ Text.join [',', ' '] (args.map Argument.print) := by
  cases args with
  | nil => exact List.not_mem_nil
  | cons a args =>
    rw [List.map_cons, join_cons]
    simpa using ⟨feed_notMem_argument a, fun b _ => feed_notMem_argument b⟩

theorem feed_notMem_callOpening (o : Operation) : '\n' ∉ callOpening o := by
  simpa [callOpening, root] using feed_notMem_name o

mutual

theorem feed_notMem_callLines : (c : Call) → (depth : Nat) →
    ∀ l ∈ c.lines depth, '\n' ∉ l.text
  | .plain o args, depth => by
    simpa [Call.lines, Call.print] using ⟨feed_notMem_name o, feed_notMem_arguments args⟩
  | .callback o args body, depth => by
    have ho := feed_notMem_callOpening o
    have hb := feed_notMem_callsLines body (depth + 2)
    simp only [Call.lines, List.mem_cons, List.mem_append, List.not_mem_nil, or_false]
    rintro l (rfl | rfl | hl | rfl)
    · simpa using ho
    · exact show '\n' ∉ root by decide
    · exact hb l hl
    · exact show '\n' ∉ bodyEnd by decide

/-- The lines of calls are lines of text. -/
theorem feed_notMem_callsLines : (cs : List Call) → (depth : Nat) →
    ∀ l ∈ callsLines depth cs, '\n' ∉ l.text
  | [], _ => fun _ hl => absurd hl List.not_mem_nil
  | c :: cs, depth => fun l hl =>
    (List.mem_append.1 hl).elim (feed_notMem_callLines c depth l)
      (feed_notMem_callsLines cs depth l)

end

theorem feed_notMem_doneLines (flags : Option Text) : ∀ l ∈ doneLines flags, '\n' ∉ l.text := by
  cases flags with
  | none => exact fun _ hl => absurd hl List.not_mem_nil
  | some flags => simpa [doneLines, printDone] using feed_notMem_quoted flags

/-! ### Bodies close where they were opened -/

/-- The depths of the calls whose bodies are open after one more line, the innermost first. A line
that ends a body must stand at the depth of the innermost one. -/
def Line.step? (opened : List Nat) (l : Line) : Option (List Nat) :=
  if l.text = bodyEnd then
    match opened with
    | [] => none
    | depth :: outer => if l.depth = depth then some outer else none
  else if l.text.getLast? = some '{' then some (l.depth :: opened)
  else some opened

/-- The depths of the calls whose bodies are open after lines, if each body that ends on them ends
at the depth of its call. -/
def opened? (opened : List Nat) (ls : List Line) : Option (List Nat) :=
  ls.foldlM Line.step? opened

theorem Line.step?_call (opened : List Nat) (depth : Nat) (s : Text) :
    Line.step? opened ⟨depth, '.' :: (s ++ [')'])⟩ = some opened := by
  have hl : ('.' :: (s ++ [')'])).getLast? = some ')' := by
    rw [← List.cons_append]
    exact List.getLast?_concat
  simp [step?, hl, bodyEnd]

theorem Line.step?_callOpening (opened : List Nat) (depth : Nat) (o : Operation) :
    Line.step? opened ⟨depth, '.' :: callOpening o⟩ = some (depth :: opened) := by
  have hl : ('.' :: callOpening o).getLast? = some '{' := by
    simp [callOpening, List.getLast?_cons]
  simp [step?, hl, bodyEnd]

theorem Line.step?_root (opened : List Nat) (depth : Nat) :
    Line.step? opened ⟨depth, root⟩ = some opened := rfl

theorem Line.step?_bodyEnd (opened : List Nat) (depth : Nat) :
    Line.step? (depth :: opened) ⟨depth, bodyEnd⟩ = some opened := by
  simp [step?]

theorem opened?_cons (opened : List Nat) (l : Line) (ls : List Line) :
    opened? opened (l :: ls) = (Line.step? opened l).bind (opened? · ls) :=
  List.foldlM_cons

theorem opened?_append (opened : List Nat) (ls ms : List Line) :
    opened? opened (ls ++ ms) = (opened? opened ls).bind (opened? · ms) :=
  List.foldlM_append

mutual

theorem opened?_callLines : (c : Call) → (depth : Nat) → (opened : List Nat) →
    opened? opened (c.lines depth) = some opened
  | .plain o args, depth, opened => by
    rw [Call.lines, opened?_cons, Call.print, Line.step?_call]
    rfl
  | .callback o args body, depth, opened => by
    rw [Call.lines, opened?_cons, Line.step?_callOpening, Option.bind_some, opened?_cons,
      Line.step?_root, Option.bind_some, opened?_append, opened?_callsLines body, Option.bind_some,
      opened?_cons, Line.step?_bodyEnd]
    rfl

/-- After the lines of calls the bodies are open that were open before them. -/
theorem opened?_callsLines : (cs : List Call) → (depth : Nat) → (opened : List Nat) →
    opened? opened (callsLines depth cs) = some opened
  | [], depth, opened => rfl
  | c :: cs, depth, opened => by
    rw [callsLines, opened?_append, opened?_callLines c, Option.bind_some, opened?_callsLines cs]

end

theorem opened?_doneLines (flags : Option Text) (opened : List Nat) :
    opened? opened (doneLines flags) = some opened := by
  cases flags with
  | none => rfl
  | some flags =>
    rw [doneLines, opened?_cons, printDone, Line.step?_call]
    rfl

/-! ### The depth never runs out -/

/-- Wherever a body ends in the segments, which are laid out from a depth on, the depth is at least
the two levels that are taken off it. -/
def Unsaturated (depth : Nat) : List Text → Prop
  | [] => True
  | s :: rest =>
    if s = root then Unsaturated (depth + 2) rest
    else if s = bodyEnd then 2 ≤ depth ∧ Unsaturated (depth - 2) rest
    else Unsaturated depth rest

theorem unsaturated_call {s : Text} (h : '(' ∈ s) (depth : Nat) (ss : List Text) :
    Unsaturated depth (s :: ss) ↔ Unsaturated depth ss := by
  have hr : s ≠ root := by rintro rfl; exact absurd h (by decide)
  have he : s ≠ bodyEnd := by rintro rfl; exact absurd h (by decide)
  rw [Unsaturated, if_neg hr, if_neg he]

mutual

theorem unsaturated_callSegments : (c : Call) → (depth : Nat) → (ss : List Text) →
    (Unsaturated depth (c.segments ++ ss) ↔ Unsaturated depth ss)
  | .plain o args, depth, ss => unsaturated_call (by simp [Call.print]) depth ss
  | .callback o args body, depth, ss => by
    have hr : Unsaturated depth (root :: (callsSegments body ++ bodyEnd :: ss)) ↔
        Unsaturated (depth + 2) (callsSegments body ++ bodyEnd :: ss) := by
      rw [Unsaturated, if_pos rfl]
    have he : Unsaturated (depth + 2) (bodyEnd :: ss) ↔ Unsaturated depth ss := by
      rw [Unsaturated, if_neg (by decide), if_pos rfl, Nat.add_sub_cancel]
      simp
    have ho := unsaturated_call (s := callOpening o) (by simp [callOpening]) depth
      (root :: (callsSegments body ++ bodyEnd :: ss))
    rw [hr, unsaturated_callsSegments body, he] at ho
    simpa [Call.segments] using ho

/-- Calls are laid out without running out of depth exactly if what follows them is. -/
theorem unsaturated_callsSegments : (cs : List Call) → (depth : Nat) → (ss : List Text) →
    (Unsaturated depth (callsSegments cs ++ ss) ↔ Unsaturated depth ss)
  | [], depth, ss => Iff.rfl
  | c :: cs, depth, ss => by
    rw [callsSegments, List.append_assoc, unsaturated_callSegments c,
      unsaturated_callsSegments cs]

end

theorem unsaturated_done (flags : Option Text) (depth : Nat) :
    Unsaturated depth (flags.toList.map printDone) := by
  cases flags with
  | none => trivial
  | some flags => exact (unsaturated_call (by simp [printDone]) depth []).2 trivial

/-! ### The layout of a chain -/

/-- A printed chain is laid out by recursion over its calls. Each call, at whatever depth, has one
line that names it; every body ends at the depth of its call; and where a body ends there are two
levels to take off. -/
theorem lines_print (c : Chain) :
    lines c.print = ⟨0, root⟩ :: (callsLines 1 c.calls ++ doneLines c.flags) ∧
    (lines c.print).filter Line.namesCall =
      (Call.allInOrder 1 c.calls).map (fun p => p.2.line p.1) ++ doneLines c.flags ∧
    (∀ l ∈ lines c.print, '\n' ∉ l.text) ∧
    opened? [] (lines c.print) = some [] ∧
    Unsaturated 1 (segments c.print).2 := by
  have hl := lines_of_print c
  refine ⟨hl, ?_, ?_, ?_, ?_⟩
  · have hr : ¬ Line.namesCall ⟨0, root⟩ = true := Bool.false_ne_true
    rw [hl, List.filter_cons_of_neg hr, List.filter_append, filter_callsLines, filter_doneLines]
  · intro l m
    rw [hl] at m
    rcases List.mem_cons.1 m with rfl | m
    · decide
    rcases List.mem_append.1 m with m | m
    · exact feed_notMem_callsLines c.calls 1 l m
    · exact feed_notMem_doneLines c.flags l m
  · rw [hl, opened?_cons, Line.step?_root, Option.bind_some, opened?_append, opened?_callsLines,
      Option.bind_some, opened?_doneLines]
  · rw [segments_print, unsaturated_callsSegments]
    exact unsaturated_done c.flags 1

end Chain

end FluentRegex
