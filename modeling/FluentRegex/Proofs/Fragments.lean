import FluentRegex.Builder

/-!
Building in place. An operation pushes its pieces one after another onto a text that it shares with
the operations before it, and nothing takes back what has been pushed when it fails. That it leaves
no part of a fragment behind is then a matter of order: it fails, if at all, before its first push,
and a callback pushes onto a builder of its own. So what an operation adds is the same on every
builder, and a sequence adds the fragments of the operations that succeed.
-/

namespace FluentRegex

/-- A computation on a builder in place, which may fail. -/
abbrev Building (α : Type) : Type :=
  ExceptT BuildError (StateM Builder) α

namespace Building

variable {α β : Type}

/-- What comes of building on this builder, and the builder as it is left. -/
def on (w : Building α) (b : Builder) : Except BuildError α × Builder :=
  w.run.run b

def push (t : Text) : Building Unit :=
  modify (·.append t)

/-- The text that is built on a new builder, which is dropped if building on it fails. -/
def aside (w : Building Unit) : Building Text :=
  match w.on {} with
  | (.ok (), inner) => pure inner.text
  | (.error e, _) => throw e

def enclosing (e : Enclosure) (callback : Building Unit) : Building Unit := do
  let body ← aside callback
  push e.opener
  push (e.escapeNested body)
  push e.closer

/-- The outcome of building that either ends with a builder or fails with `left` as it is. -/
def outcome (left : Builder) : Except BuildError Builder → Except BuildError Unit × Builder
  | .ok b => (.ok (), b)
  | .error e => (.error e, left)

@[simp] theorem on_pure (a : α) (b : Builder) : (pure a : Building α).on b = (.ok a, b) := rfl

@[simp] theorem on_throw (e : BuildError) (b : Builder) :
    (throw e : Building α).on b = (.error e, b) := rfl

@[simp] theorem on_push (t : Text) (b : Builder) : (push t).on b = (.ok (), b.append t) := rfl

/-- What was written before a failure is still there after it. -/
@[simp] theorem on_bind (w : Building α) (f : α → Building β) (b : Builder) :
    (w >>= f).on b =
      match w.on b with
      | (.ok a, b') => (f a).on b'
      | (.error e, b') => (.error e, b') := by
  have h : (w >>= f).on b = StateT.run (ExceptT.bindCont f (w.on b).1) (w.on b).2 := rfl
  rw [h]
  rcases w.on b with ⟨_ | a, b'⟩ <;> rfl

theorem on_aside (w : Building Unit) (b : Builder) :
    (aside w).on b = ((w.on {}).1.map fun _ => (w.on {}).2.text, b) := by
  rw [aside]
  rcases w.on {} with ⟨_ | ⟨⟩, inner⟩ <;> rfl

/-- An enclosure is built whole or not at all, whatever its callback does. -/
theorem on_enclosing (e : Enclosure) (w : Building Unit) (b : Builder) :
    (enclosing e w).on b =
      outcome b ((w.on {}).1.map fun _ => b.append (e.wrapNested (w.on {}).2.text)) := by
  rw [enclosing, on_bind, on_aside]
  rcases w.on {} with ⟨err | ⟨⟩, inner⟩
  · rfl
  · simp [Except.map, outcome, Builder.append, Enclosure.wrapNested]

end Building

open Building

/-! ### Steps in place -/

namespace Step

mutual

def write : Step → Building Unit
  | .token k q => do
    push k.sequence
    push q.suffix
  | .quantifiedString t q => do
    push t
    push q.suffix
  | .literal t q =>
    if !q.isNone && decide (1 < Escape.atomCount t) then throw (.severalAtoms t)
    else do
      push (Escape.literals t)
      push q.suffix
  | .enclose e t => do
    push e.opener
    push (e.escapeText t)
    push e.closer
  | .encloseSteps e ss => enclosing e (writeAll ss)

def writeAll : List Step → Building Unit
  | [] => pure ()
  | s :: ss => do
    write s
    writeAll ss

end

mutual

/-- Building a step in place gives the builder after the step, and fails without a trace. -/
theorem on_write : (s : Step) → (b : Builder) → s.write.on b = outcome b (b.apply s)
  | .token k q, b => by
    simp [write, Builder.apply, outcome, Builder.token, Builder.quantifiedString, Builder.append]
  | .quantifiedString t q, b => by
    simp [write, Builder.apply, outcome, Builder.quantifiedString, Builder.append]
  | .literal t q, b => by
    rw [write, Builder.apply, Builder.literal]
    split
    · rfl
    · simp [outcome, Builder.quantifiedString, Builder.append]
  | .enclose e t, b => by
    simp [write, Builder.apply, outcome, Builder.enclose, Builder.append, Enclosure.wrapText]
  | .encloseSteps e ss, b => by
    obtain ⟨left, h⟩ := exists_on_writeAll ss {}
    rw [write, on_enclosing, h, Builder.apply_encloseSteps]
    cases Builder.run {} ss <;> rfl

/-- Steps that fail leave behind what the steps before the failure have built. -/
theorem exists_on_writeAll : (ss : List Step) → (b : Builder) →
    ∃ left, (writeAll ss).on b = outcome left (b.run ss)
  | [], b => ⟨b, by rw [writeAll, Builder.run_nil]; rfl⟩
  | s :: ss, b => by
    rw [writeAll, on_bind, on_write s b, Builder.run_cons]
    cases b.apply s with
    | ok b' => exact exists_on_writeAll ss b'
    | error e => exact ⟨b, rfl⟩

end

end Step

/-- What a step adds to a builder, and whether it fails, does not depend on the builder. -/
theorem Builder.apply_eq_map (b : Builder) (s : Step) :
    b.apply s = (Builder.apply {} s).map fun c => b.append c.text := by
  cases s with
  | token k q => rfl
  | quantifiedString t q => rfl
  | literal t q =>
    rw [apply, apply, literal, literal]
    split <;> rfl
  | enclose e t => rfl
  | encloseSteps e ss =>
    rw [apply_encloseSteps, apply_encloseSteps]
    cases run {} ss <;> rfl

/-! ### Operations in place -/

/-- An operation in place. The callback of an enclosure can be any building at all: it may go on
after an operation that has failed, or fail when others have succeeded. -/
inductive Edit where
  | step (s : Step)
  | enclosing (e : Enclosure) (callback : Building Unit)

namespace Edit

def write : Edit → Building Unit
  | step s => s.write
  | enclosing e callback => Building.enclosing e callback

/-- The text that the operation builds alone on an empty builder, if it succeeds. -/
def alone? (d : Edit) : Option Text :=
  match d.write.on {} with
  | (.ok (), b) => some b.text
  | (.error _, _) => none

/-- On every builder an operation adds what it builds alone, or else fails and leaves the builder
as it was. -/
theorem on_write (d : Edit) (b : Builder) :
    match d.alone? with
    | some t => d.write.on b = (.ok (), b.append t)
    | none => ∃ e, d.write.on b = (.error e, b) := by
  cases d with
  | step s =>
    rw [alone?, write, Step.on_write, Step.on_write, b.apply_eq_map]
    cases Builder.apply {} s with
    | ok c => rfl
    | error e => exact ⟨e, rfl⟩
  | enclosing e callback =>
    rw [alone?, write, on_enclosing, on_enclosing]
    cases (callback.on {}).1 with
    | ok _ => rfl
    | error err => exact ⟨err, rfl⟩

end Edit

namespace Builder

/-- The builder that an operation leaves, whether it succeeds or fails. -/
def edit (b : Builder) (d : Edit) : Builder :=
  (d.write.on b).2

theorem edit_eq (b : Builder) (d : Edit) : b.edit d = b.append (d.alone?.getD []) := by
  have h := d.on_write b
  rw [edit]
  cases ha : d.alone? with
  | some t =>
    rw [ha] at h
    rw [h]
    rfl
  | none =>
    rw [ha] at h
    obtain ⟨e, h⟩ := h
    rw [h]
    simp [append]

theorem edit_step (b : Builder) (s : Step) : b.edit (.step s) = b.attempt s := by
  rw [edit, Edit.write, Step.on_write, attempt]
  cases b.apply s <;> rfl

/-- Operations one after another, each carried out in place whether the ones before it have
succeeded or failed, add the fragments of those that succeed, in order. Each fragment is what the
operation builds alone, and one that fails leaves the builder as it was, also if its callback has
built something by then. Steps in place are the steps of a program. -/
theorem text_foldl_edit (b : Builder) (ds : List Edit) :
    (ds.foldl edit b).text = b.text ++ (ds.filterMap Edit.alone?).flatten ∧
    (∀ (d : Edit) (c : Builder),
      match d.alone? with
      | some t => d.write.on c = (.ok (), c.append t)
      | none => ∃ e, d.write.on c = (.error e, c)) ∧
    (∀ (s : Step) (c : Builder), (Edit.step s).write.on c = outcome c (c.apply s)) ∧
    ∀ ss : List Step, (ss.map Edit.step).foldl edit b = ss.foldl attempt b := by
  refine ⟨?_, Edit.on_write, Step.on_write, fun ss => ?_⟩
  · induction ds generalizing b with
    | nil => simp
    | cons d ds ih =>
      rw [List.foldl_cons, ih, edit_eq]
      cases h : d.alone? <;> simp [h]
  · rw [List.foldl_map]
    exact congrArg (fun f => ss.foldl f b) (funext fun c => funext (edit_step c))

/-- A group fails after the first step of its callback. On the builder it leaves nothing of that
step, and neither does it on the builder of a callback that goes on after it. -/
example :
    let group := Step.encloseSteps (.group .capturing)
      [.literal ['a'] .none, .literal ['b', 'c'] (.exactly 2)]
    let callback := do
      tryCatch group.write fun _ => pure ()
      push ['z']
    let edits := [.step (.literal ['x'] .none), .step group, .enclosing (.set false) callback]
    (List.foldl edit {} edits).text = "x[z]".toList := by
  rfl

end Builder

end FluentRegex
