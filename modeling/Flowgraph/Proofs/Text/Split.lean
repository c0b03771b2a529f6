import Mathlib.Data.String.Basic
import Mathlib.Tactic

/-! Texts that are split at a character. The pieces are those of the list of characters, and the character is in none
of them. -/

namespace Flowgraph.Text

open String

theorem mem_of_mem_splitOn {a : Char} {cs piece : List Char} (h : piece ∈ cs.splitOn a) :
    ∀ c ∈ piece, c ∈ cs ∧ c ≠ a := by
  induction cs generalizing piece with
  | nil => simp_all
  | cons d rest ih =>
    have hcons : ∀ p ∈ rest.splitOn a, ∀ c ∈ p, c ∈ d :: rest ∧ c ≠ a := fun p hp c hc =>
      ⟨List.mem_cons_of_mem d (ih hp c hc).1, (ih hp c hc).2⟩
    rw [List.splitOn_cons_eq_if_modifyHead] at h
    split_ifs at h with hd
    · rcases List.mem_cons.1 h with rfl | h
      · simp
      · exact hcons piece h
    · have hne : d ≠ a := by simpa using hd
      cases hsplit : rest.splitOn a with
      | nil => simp at hsplit
      | cons first others =>
        rw [hsplit] at h hcons
        rcases List.mem_cons.1 h with rfl | h
        · exact List.forall_mem_cons.2 ⟨⟨List.mem_cons_self, hne⟩, hcons first List.mem_cons_self⟩
        · exact hcons piece (List.mem_cons_of_mem first h)

/-- Splitting goes on at a place with the characters from the last place on that it has split at. -/
theorem splitOnAux_singleton (c : Char) (done piece rest : List Char) (acc : List String) :
    splitOnAux (ofList (done ++ piece ++ rest)) (ofList [c]) ⟨utf8Len done⟩ ⟨utf8Len done + utf8Len piece⟩ 0 acc =
      acc.reverse ++ (List.splitOnPPrepend (· == c) rest piece.reverse).map ofList := by
  induction rest generalizing done piece acc with
  | nil =>
    have hend : Pos.Raw.atEnd (ofList (done ++ piece ++ [])) ⟨utf8Len done + utf8Len piece⟩ = true := by
      rw [← utf8Len_append]
      exact (atEnd_of_valid (done ++ piece) []).2 rfl
    rw [splitOnAux, if_pos hend, extract_of_valid]
    simp
  | cons d rest ih =>
    -- what stands at the place, and the place behind it
    have hend : ¬ Pos.Raw.atEnd (ofList (done ++ piece ++ d :: rest)) ⟨utf8Len done + utf8Len piece⟩ = true := by
      rw [← utf8Len_append, atEnd_of_valid]
      exact List.cons_ne_nil d rest
    have hget : Pos.Raw.get (ofList (done ++ piece ++ d :: rest)) ⟨utf8Len done + utf8Len piece⟩ = d := by
      rw [← utf8Len_append]
      exact get_of_valid (done ++ piece) (d :: rest)
    have hnext : Pos.Raw.next (ofList (done ++ piece ++ d :: rest)) ⟨utf8Len done + utf8Len piece⟩ =
        ⟨utf8Len done + utf8Len piece + d.utf8Size⟩ := by
      rw [← utf8Len_append]
      exact next_of_valid (done ++ piece) d rest
    have hc : Pos.Raw.get (ofList [c]) 0 = c := get_of_valid [] [c]
    have hcnext : Pos.Raw.next (ofList [c]) 0 = ⟨0 + c.utf8Size⟩ := next_of_valid [] c []
    have hcend : Pos.Raw.atEnd (ofList [c]) ⟨0 + c.utf8Size⟩ = true := by
      simpa using atEnd_of_valid [c] []
    rw [splitOnAux, if_neg hend, hget, hc]
    dsimp only
    rw [hnext, hcnext, if_pos hcend, List.splitOnPPrepend_cons_eq_if]
    by_cases hd : d = c
    · subst hd
      have hpiece : (⟨utf8Len done + utf8Len piece + d.utf8Size⟩ : Pos.Raw).unoffsetBy ⟨0 + d.utf8Size⟩ =
          ⟨utf8Len done + utf8Len piece⟩ := by simp [Pos.Raw.unoffsetBy]
      have hrest := ih (done ++ piece ++ [d]) [] (ofList piece :: acc)
      simp only [List.append_nil, utf8Len_append, utf8Len_cons, utf8Len_nil, Nat.zero_add, Nat.add_zero] at hrest
      rw [if_pos (beq_self_eq_true d), if_pos (beq_self_eq_true d), hpiece, extract_of_valid,
        List.append_cons (done ++ piece) d rest, hrest]
      simp
    · have hne : ¬ (d == c) = true := by simpa using hd
      have hkeep : (⟨utf8Len done + utf8Len piece⟩ : Pos.Raw).unoffsetBy 0 = ⟨utf8Len done + utf8Len piece⟩ := rfl
      have hrest := ih done (piece ++ [d]) acc
      simp only [← List.append_assoc, utf8Len_append, utf8Len_cons, utf8Len_nil, Nat.zero_add] at hrest
      rw [if_neg hne, if_neg hne, hkeep, hnext, List.append_cons (done ++ piece) d rest, Nat.add_assoc, hrest]
      simp

/-- A text is split as the list of its characters is. -/
theorem splitOn_singleton (s : String) (c : Char) : s.splitOn (ofList [c]) = (s.toList.splitOn c).map ofList := by
  have hne : ¬ (ofList [c] == "") = true := by simp
  have h := splitOnAux_singleton c [] [] s.toList []
  simp only [List.nil_append, ofList_toList, List.reverse_nil] at h
  rw [splitOn, if_neg hne]
  exact h

end Flowgraph.Text
