import FluentRegex.Flags
import Mathlib.Data.List.Induction
import Mathlib.Data.List.Nodup
import Mathlib.Data.Set.List

/-!
Which texts are sets of flags. A text lists flags if each of its characters is of a flag and none
occurs twice; any other text fails at the first character at which it stops being such a list. What
a list of flags is read as depends on its characters only, and not on their order.
-/

namespace FluentRegex

namespace Flag

/-- The characters of the flags, in the order in which flags are written. -/
def alphabet : Text :=
  "dgimsuvy".toList

theorem alphabet_eq : alphabet = all.map char := rfl

theorem char_injective {f g : Flag} (h : f.char = g.char) : f = g := by
  have := congrArg ofChar? h
  simpa only [ofChar?_char, Option.some.injEq] using this

theorem mem_alphabet_iff {c : Char} : c ∈ alphabet ↔ ∃ f : Flag, f.char = c := by
  simp [alphabet_eq, mem_all]

theorem ofChar?_eq_none_iff {c : Char} : ofChar? c = none ↔ c ∉ alphabet := by
  simp [ofChar?, mem_alphabet_iff, mem_all]

theorem char_mem_map_iff {f : Flag} {fs : List Flag} : f.char ∈ fs.map char ↔ f ∈ fs :=
  List.mem_map_of_injective fun _ _ => char_injective

end Flag

namespace Flags

open FluentRegex.Flag (alphabet)

variable {s t : Text} {chosen fs : List Flag} {c : Char}

/-! ### Lists of flags -/

/-- Each character of the text is of a flag, and none occurs twice. -/
def Listed (t : Text) : Prop :=
  (∀ c ∈ t, c ∈ alphabet) ∧ t.Nodup

theorem listed_nil : Listed [] := by
  simp [Listed]

theorem listed_concat_iff : Listed (t ++ [c]) ↔ Listed t ∧ c ∈ alphabet ∧ c ∉ t := by
  simp only [Listed, List.nodup_append', List.mem_append, List.mem_singleton, or_imp, forall_and,
    forall_eq, List.nodup_singleton, List.disjoint_singleton]
  tauto

theorem listed_of_perm (hp : s.Perm t) (h : Listed t) : Listed s :=
  ⟨fun c hc => h.1 c (hp.subset hc), hp.nodup_iff.2 h.2⟩

theorem listed_map_char (hn : fs.Nodup) : Listed (fs.map Flag.char) := by
  refine ⟨fun c hc => ?_, hn.map fun _ _ => Flag.char_injective⟩
  obtain ⟨f, -, rfl⟩ := List.mem_map.1 hc
  exact Flag.mem_alphabet_iff.2 ⟨f, rfl⟩

theorem exists_of_listed (h : Listed t) : ∃ fs : List Flag, fs.Nodup ∧ t = fs.map Flag.char := by
  have hr : t ∈ Set.range (List.map Flag.char) := by
    rw [Set.range_list_map]
    exact fun c hc => Flag.mem_alphabet_iff.1 (h.1 c hc)
  obtain ⟨fs, rfl⟩ := hr
  exact ⟨fs, h.2.of_map _, rfl⟩

/-- A text that does not list flags does so up to some character that is of no flag, or that stands
before it too. -/
theorem exists_of_not_listed (h : ¬ Listed t) :
    ∃ (before : Text) (c : Char) (after : Text), t = before ++ c :: after ∧ Listed before ∧
      (c ∉ alphabet ∨ c ∈ before) := by
  induction t using List.reverseRecOn with
  | nil => exact absurd listed_nil h
  | append_singleton t c ih =>
    by_cases ht : Listed t
    · refine ⟨t, c, [], rfl, ht, ?_⟩
      by_contra hc
      rw [not_or, not_not] at hc
      exact h (listed_concat_iff.2 ⟨ht, hc⟩)
    · obtain ⟨before, d, after, rfl, hd⟩ := ih ht
      exact ⟨before, d, after ++ [c], by simp, hd⟩

theorem conflict_iff : 'u' ∈ fs.map Flag.char ∧ 'v' ∈ fs.map Flag.char ↔
    Flag.unicode ∈ fs ∧ Flag.unicodeSets ∈ fs :=
  and_congr (Flag.char_mem_map_iff (f := .unicode)) (Flag.char_mem_map_iff (f := .unicodeSets))

/-! ### Flags and their characters -/

theorem filter_eq_of_sublist {fs gs : List Flag} (h : fs.Sublist gs) (hn : gs.Nodup)
    (p : Flag → Bool) (hp : ∀ f ∈ gs, p f = true ↔ f ∈ fs) : gs.filter p = fs := by
  induction h with
  | slnil => rfl
  | @cons fs gs g h ih =>
    obtain ⟨hg, hn⟩ := List.nodup_cons.1 hn
    rw [List.filter_cons_of_neg fun e => hg (h.subset ((hp g (by simp)).1 e))]
    exact ih hn fun f hf => hp f (by simp [hf])
  | @cons_cons fs gs g h ih =>
    obtain ⟨hg, hn⟩ := List.nodup_cons.1 hn
    rw [List.filter_cons_of_pos ((hp g (by simp)).2 (by simp)), ih hn]
    intro f hf
    have hfg : f ≠ g := fun e => hg (e ▸ hf)
    simpa [hfg] using hp f (by simp [hf])

theorem nodup_all : Flag.all.Nodup := by decide

theorem filter_contains (fs : Flags) : Flag.all.filter fs.contains = fs.toList :=
  filter_eq_of_sublist fs.sublist_all nodup_all _ (by simp [contains])

theorem eq_of_mem_iff {fs gs : Flags} (h : ∀ f, f ∈ fs.toList ↔ f ∈ gs.toList) : fs = gs := by
  have hc : fs.contains = gs.contains := funext fun f => by simp [contains, h f]
  have hl : fs.toList = gs.toList := by rw [← filter_contains, ← filter_contains, hc]
  obtain ⟨l, _, _⟩ := fs
  obtain rfl : l = gs.toList := hl
  rfl

theorem char_mem_text_iff {fs : Flags} {f : Flag} : f.char ∈ fs.text ↔ f ∈ fs.toList :=
  Flag.char_mem_map_iff

theorem containsChar_iff {fs : Flags} : fs.containsChar c = true ↔ c ∈ fs.text := by
  rw [containsChar]
  cases hc : Flag.ofChar? c with
  | none =>
    have hn : c ∉ fs.text := fun m => by
      obtain ⟨f, -, rfl⟩ := List.mem_map.1 m
      rw [Flag.ofChar?_char] at hc
      cases hc
    simpa using hn
  | some f =>
    rw [← Flag.char_of_ofChar? hc, char_mem_text_iff]
    simp [contains]

/-- Flags are written in the order of the alphabet. -/
theorem text_eq_filter {fs : Flags} (h : ∀ c, c ∈ fs.text ↔ c ∈ t) :
    fs.text = alphabet.filter (· ∈ t) := by
  have hp : (fun c => decide (c ∈ t)) ∘ Flag.char = fs.contains := funext fun f => by
    rw [Function.comp_apply, contains, decide_eq_decide, ← h, char_mem_text_iff]
  rw [Flag.alphabet_eq, List.filter_map, hp, filter_contains, text]

/-! ### Reading them -/

/-- Listed flags are read one after another. -/
theorem readFrom_append (hn : fs.Nodup) (h : ∀ f ∈ fs, f ∉ chosen) (t : Text) :
    readFrom chosen (fs.map Flag.char ++ t) = readFrom (fs.reverse ++ chosen) t := by
  induction fs generalizing chosen with
  | nil => rfl
  | cons f fs ih =>
    obtain ⟨hf, hn⟩ := List.nodup_cons.1 hn
    rw [List.map_cons, List.cons_append, readFrom, Flag.ofChar?_char]
    simp only [h f (by simp), if_false]
    rw [ih hn, List.reverse_cons, List.append_assoc, List.singleton_append]
    intro g hg m
    rcases List.mem_cons.1 m with rfl | m
    · exact hf hg
    · exact h g (by simp [hg]) m

theorem readFrom_map_char_append (hn : fs.Nodup) (t : Text) :
    readFrom [] (fs.map Flag.char ++ t) = readFrom fs.reverse t := by
  rw [readFrom_append hn fun f _ => List.not_mem_nil, List.append_nil]

/-- The first character that is of no flag ends the reading. -/
theorem parse_unknown (h : Listed t) (hc : c ∉ alphabet) (rest : Text) :
    parse (t ++ c :: rest) = .error (.unknown c) := by
  obtain ⟨fs, hn, rfl⟩ := exists_of_listed h
  rw [parse, readFrom_map_char_append hn, readFrom, Flag.ofChar?_eq_none_iff.2 hc]

/-- The first character that repeats one before it ends the reading. -/
theorem parse_duplicate (h : Listed t) (hc : c ∈ t) (rest : Text) :
    parse (t ++ c :: rest) = .error (.duplicate c) := by
  obtain ⟨fs, hn, rfl⟩ := exists_of_listed h
  obtain ⟨f, hf, rfl⟩ := List.mem_map.1 hc
  rw [parse, readFrom_map_char_append hn, readFrom, Flag.ofChar?_char]
  simp [hf]

/-- Listed flags are read unless two of them exclude each other. -/
theorem parse_map_char (hn : fs.Nodup) :
    (Flag.unicode ∈ fs ∧ Flag.unicodeSets ∈ fs) ∧
      parse (fs.map Flag.char) = .error .unicodeConflict ∨
    ¬ (Flag.unicode ∈ fs ∧ Flag.unicodeSets ∈ fs) ∧
      ∃ gs : Flags, parse (fs.map Flag.char) = .ok gs ∧ ∀ f, f ∈ gs.toList ↔ f ∈ fs := by
  have hr := readFrom_map_char_append hn []
  rw [List.append_nil, readFrom] at hr
  rw [parse, hr]
  by_cases hc : Flag.unicode ∈ fs ∧ Flag.unicodeSets ∈ fs
  · exact .inl ⟨hc, dif_pos (by simpa using hc)⟩
  · exact .inr ⟨hc, _, dif_neg (by simpa using hc), fun f => by simp [Flag.mem_all]⟩

/-- The flags of a text are exactly those whose characters it lists. -/
theorem parse_eq_ok_iff {fs : Flags} : parse t = .ok fs ↔ Listed t ∧ ∀ c, c ∈ fs.text ↔ c ∈ t := by
  by_cases ht : Listed t
  · obtain ⟨l, hn, rfl⟩ := exists_of_listed ht
    rcases parse_map_char hn with ⟨⟨hu, hv⟩, hp⟩ | ⟨-, gs, hp, hgs⟩
    · rw [hp]
      refine ⟨nofun, fun h => absurd ⟨?_, ?_⟩ fs.compatible⟩
      · exact char_mem_text_iff.1 ((h.2 _).2 (Flag.char_mem_map_iff.2 hu))
      · exact char_mem_text_iff.1 ((h.2 _).2 (Flag.char_mem_map_iff.2 hv))
    · rw [hp]
      constructor
      · rintro ⟨⟩
        refine ⟨ht, fun c => ?_⟩
        simp [text, hgs]
      · rintro ⟨-, h⟩
        refine congrArg _ (eq_of_mem_iff fun f => ?_)
        rw [hgs, ← Flag.char_mem_map_iff, ← h, char_mem_text_iff]
  · obtain ⟨before, c, after, rfl, hb, hc | hc⟩ := exists_of_not_listed ht
    · rw [parse_unknown hb hc]
      exact ⟨nofun, fun h => absurd h.1 ht⟩
    · rw [parse_duplicate hb hc]
      exact ⟨nofun, fun h => absurd h.1 ht⟩

theorem parse_text (fs : Flags) : parse fs.text = .ok fs :=
  parse_eq_ok_iff.2 ⟨listed_map_char (nodup_all.sublist fs.sublist_all), fun _ => Iff.rfl⟩

/-- How any text is read. A text that does not list flags fails at the first character that is of no
flag or repeats one before it. A text that does fails exactly if `u` and `v` are both in it. It is
read otherwise, as the flags of its characters. Then the characters in any other order are read as
the same flags; these are written in the order of the alphabet, and what is written is read as them
again. -/
theorem parse_listed (t : Text) :
    (¬ Listed t → ∃ (before : Text) (c : Char) (after : Text), t = before ++ c :: after ∧
      Listed before ∧ (c ∉ alphabet ∧ parse t = .error (.unknown c) ∨
        c ∈ before ∧ parse t = .error (.duplicate c))) ∧
    (Listed t → (parse t = .error .unicodeConflict ↔ 'u' ∈ t ∧ 'v' ∈ t)) ∧
    (Listed t → ¬ ('u' ∈ t ∧ 'v' ∈ t) → ∃ fs : Flags, parse t = .ok fs ∧
      (∀ c, fs.containsChar c = true ↔ c ∈ t) ∧ (∀ s : Text, s.Perm t → parse s = .ok fs) ∧
      fs.text = alphabet.filter (· ∈ t) ∧ parse fs.text = .ok fs) := by
  refine ⟨fun h => ?_, fun h => ?_, fun h hc => ?_⟩
  · obtain ⟨before, c, after, rfl, hb, hc | hc⟩ := exists_of_not_listed h
    · exact ⟨before, c, after, rfl, hb, .inl ⟨hc, parse_unknown hb hc after⟩⟩
    · exact ⟨before, c, after, rfl, hb, .inr ⟨hc, parse_duplicate hb hc after⟩⟩
  · obtain ⟨fs, hn, rfl⟩ := exists_of_listed h
    rw [conflict_iff]
    rcases parse_map_char hn with ⟨hc, hp⟩ | ⟨hc, gs, hp, -⟩
    · exact iff_of_true hp hc
    · rw [hp]
      exact iff_of_false nofun hc
  · obtain ⟨fs, hn, rfl⟩ := exists_of_listed h
    rw [conflict_iff] at hc
    rcases parse_map_char hn with ⟨hc', -⟩ | ⟨-, gs, hp, -⟩
    · exact absurd hc' hc
    · have hm := (parse_eq_ok_iff.1 hp).2
      refine ⟨gs, hp, fun c => containsChar_iff.trans (hm c), fun s hs => ?_, text_eq_filter hm,
        parse_text gs⟩
      exact parse_eq_ok_iff.2 ⟨listed_of_perm hs h, fun c => (hm c).trans hs.mem_iff.symm⟩

end Flags

end FluentRegex
