/-
**Cutting text at spaces and joining it again.**

Cutting and joining undo each other, provided that no word has a space in it and there is a word at
all.  So a text has given words in exactly one way.  The same holds of a single cut, which splits a
text only where nothing in front of the space has another one.

Main results:

* `LineChat.Text.unwords_words`, `LineChat.Text.words_unwords` — **cutting and joining**;
* `LineChat.Text.mem_unwords` — the characters of joined words;
* `LineChat.Text.cutAtSpace_eq_some_iff`, `LineChat.Text.cutAtSpace_eq_none_iff` — **a single cut**.
-/

import LineChat.Text.Words
import Mathlib.Data.List.TakeWhile

set_option autoImplicit false

namespace LineChat.Text

theorem toList_unwords (ws : List String) :
    (unwords ws).toList = [' '].intercalate (ws.map String.toList) := by
  rw [unwords, String.toList_intercalate]
  rfl

theorem unwords_words (s : String) : unwords (words s) = s := by
  have hmap : (words s).map String.toList = s.toList.splitOn ' ' := by
    simp [words, Function.comp_def]
  rw [← String.toList_inj, toList_unwords, hmap, List.intercalate_splitOn]

theorem words_unwords {ws : List String} (h : ∀ w ∈ ws, ' ' ∉ w.toList) (hne : ws ≠ []) :
    words (unwords ws) = ws := by
  have hspace : ∀ cs ∈ ws.map String.toList, ' ' ∉ cs := by
    intro cs hcs
    obtain ⟨w, hw, rfl⟩ := List.mem_map.1 hcs
    exact h w hw
  rw [words, toList_unwords, List.splitOn_intercalate ' ' hspace (by simpa using hne)]
  simp [Function.comp_def]

/-- A character of joined words is a space, or in one of the words. -/
theorem mem_unwords {ws : List String} {c : Char} (h : c ∈ (unwords ws).toList) :
    c = ' ' ∨ ∃ w ∈ ws, c ∈ w.toList := by
  rw [toList_unwords] at h
  induction ws with
  | nil => simp at h
  | cons w ws ih =>
      cases ws with
      | nil => exact Or.inr ⟨w, List.mem_cons_self .., by simpa using h⟩
      | cons w' ws =>
          rw [List.map_cons, List.map_cons, List.intercalate_cons_cons] at h
          rcases List.mem_append.1 h with h | h
          · rcases List.mem_append.1 h with h | h
            · exact Or.inr ⟨w, List.mem_cons_self .., h⟩
            · exact Or.inl (List.mem_singleton.1 h)
          · rcases ih h with hspace | ⟨v, hv, hc⟩
            · exact Or.inl hspace
            · exact Or.inr ⟨v, List.mem_cons_of_mem _ hv, hc⟩

/-! ### A single cut -/

theorem cutAtSpace_append {front : String} (h : ' ' ∉ front.toList) (rest : String) :
    cutAtSpace (front ++ " " ++ rest) = some (front, rest) := by
  have hall : ∀ c ∈ front.toList, decide (c ≠ ' ') = true := by
    intro c hc
    rw [decide_eq_true_iff]
    rintro rfl
    exact h hc
  have hchars : (front ++ " " ++ rest).toList = front.toList ++ ' ' :: rest.toList := by simp
  rw [cutAtSpace, hchars, List.dropWhile_append_of_pos hall, List.takeWhile_append_of_pos hall]
  simp

/-- **A text without a space is not cut.** -/
theorem cutAtSpace_eq_none_iff {s : String} : cutAtSpace s = none ↔ ' ' ∉ s.toList := by
  have hdrop : s.toList.dropWhile (· ≠ ' ') = [] ↔ ' ' ∉ s.toList := by
    rw [List.dropWhile_eq_nil_iff]
    constructor
    · intro h hmem
      exact absurd (h ' ' hmem) (by decide)
    · intro h c hc
      rw [decide_eq_true_iff]
      rintro rfl
      exact h hc
  rw [← hdrop, cutAtSpace]
  split
  · rename_i hnil
    exact iff_of_true rfl hnil
  · rename_i hcons
    exact iff_of_false (by simp) (by rw [hcons]; simp)

/-- **A text is cut at its first space**: there is one, and none in front of it. -/
theorem cutAtSpace_eq_some_iff {s front rest : String} :
    cutAtSpace s = some (front, rest) ↔ s = front ++ " " ++ rest ∧ ' ' ∉ front.toList := by
  constructor
  · intro h
    by_cases hmem : ' ' ∈ s.toList
    · obtain ⟨before, after, hs, hbefore⟩ := List.eq_append_cons_of_mem hmem
      have htext : s = String.ofList before ++ " " ++ String.ofList after := by
        rw [← String.toList_inj]
        simpa using hs
      rw [htext, cutAtSpace_append (by simpa using hbefore)] at h
      cases h
      exact ⟨htext, by simpa using hbefore⟩
    · rw [cutAtSpace_eq_none_iff.2 hmem] at h
      cases h
  · rintro ⟨rfl, hfront⟩
    exact cutAtSpace_append hfront rest

end LineChat.Text
