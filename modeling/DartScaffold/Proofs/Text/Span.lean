import Mathlib.Data.List.Induction
import Mathlib.Data.List.Nodup

/-!
Lists cut where a test first fails, and lists without their repetitions.
-/

namespace DartScaffold.Text

variable {α : Type} {p : α → Bool}

theorem of_mem_takeWhile {s : List α} {a : α} (h : a ∈ s.takeWhile p) : p a = true :=
  List.all_eq_true.mp List.all_takeWhile a h

theorem of_mem_head?_dropWhile {s : List α} {a : α} (h : a ∈ (s.dropWhile p).head?) :
    p a = false := by
  have hnot := List.head?_dropWhile_not p s
  rw [Option.mem_def.mp h] at hnot
  simpa using hnot

theorem takeWhile_append_stop {s rest : List α} (hs : ∀ a ∈ s, p a = true)
    (hstop : ∀ a ∈ rest.head?, p a = false) : (s ++ rest).takeWhile p = s := by
  rw [List.takeWhile_append_of_pos hs]
  cases rest with
  | nil => simp
  | cons a rest => simp [hstop a rfl]

theorem dropWhile_append_stop {s rest : List α} (hs : ∀ a ∈ s, p a = true)
    (hstop : ∀ a ∈ rest.head?, p a = false) : (s ++ rest).dropWhile p = rest := by
  rw [List.dropWhile_append_of_pos hs]
  cases rest with
  | nil => rfl
  | cons a rest => simp [hstop a rfl]

theorem drop_length_takeWhile (s : List α) : s.drop (s.takeWhile p).length = s.dropWhile p := by
  calc s.drop (s.takeWhile p).length
      = (s.takeWhile p ++ s.dropWhile p).drop (s.takeWhile p).length := by
        rw [List.takeWhile_append_dropWhile]
    _ = s.dropWhile p := List.drop_left

theorem nodup_eraseDups [BEq α] [LawfulBEq α] (s : List α) : s.eraseDups.Nodup := by
  induction s using List.reverseRecOn with
  | nil => simp
  | append_singleton s a ih =>
      rw [List.eraseDups_append]
      by_cases hmem : a ∈ s
      · simpa [List.removeAll, hmem] using ih
      · have hnew : a ∉ s.eraseDups := fun h => hmem (List.mem_eraseDups.mp h)
        simpa [List.removeAll, hmem, List.eraseDups_cons, List.concat_eq_append] using
          List.Nodup.concat hnew ih

end DartScaffold.Text
