import Flowgraph.Proofs.Program.Lines
import Flowgraph.Proofs.Program.Token

/-! The surface of a text, token by token. A text without a fault in its surface and without null characters is
one that leads from no open bracket to no open bracket; and where it leads can be told piece by piece. -/

namespace Flowgraph.Program

open Text Expression

/-! Tokens -/

def hasNull (cs : List Char) : Bool :=
  cs.any fun c => c.toNat = 0

theorem hasNull_eq_true {cs : List Char} : hasNull cs = true ↔ ∃ c ∈ cs, c.toNat = 0 := by
  simp [hasNull]

theorem hasNull_eq_false {cs : List Char} : hasNull cs = false ↔ ∀ c ∈ cs, c.toNat ≠ 0 := by
  simp [hasNull]

def turn? (stack : List Char) (c : Char) : Option (List Char) :=
  if (closer? c).isSome then (if nestingLimit ≤ stack.length then none else some (c :: stack))
  else if isCloser c then
    match stack with
    | [] => none
    | d :: outer => if closer? d = some c then some outer else none
  else some stack

/-- The brackets open behind one token or gap, and the text that follows it. There is none behind a fault, nor behind
a comment or a text in which a null character stands. -/
def token? (stack : List Char) (c : Char) (rest : List Char) : Option (List Char × List Char) :=
  if c = '\n' then some (stack, rest)
  else if isGap c then some (stack, rest)
  else if c = '#' then
    if hasNull (rest.takeWhile (· ≠ '\n')) then none else some (stack, afterComment rest)
  else if c = '\\' then
    match rest with
    | '\n' :: tail => some (stack, tail)
    | _ => none
  else if c = '"' || c = '\'' then
    match readBody c rest with
    | some (body, tail) => if hasNull body then none else some (stack, tail)
    | none => none
  else if mayStartName c then
    if (misfit? (c :: rest.takeWhile mayContinueName)).isSome then none
    else some (stack, rest.dropWhile mayContinueName)
  else if isAsciiDigit c || (c = '.' && (rest.head?.map isAsciiDigit).getD false) then
    (readNumber (c :: rest)).map fun r => (stack, r.2)
  else if !Text.isPrintable c then none
  else (turn? stack c).map fun behind => (behind, rest)

/-- Token by token, a text leads from open brackets to open brackets. -/
inductive Leads : List Char → List Char → List Char → Prop
  | nil (stack : List Char) : Leads stack [] stack
  | step {stack behind rest tail final : List Char} {c : Char} (first : token? stack c rest = some (behind, tail))
      (more : Leads behind tail final) : Leads stack (c :: rest) final

section
variable {stack behind rest tail final : List Char} {c : Char}

@[simp] theorem leads_nil_iff : Leads stack [] final ↔ stack = final := by
  constructor
  · rintro ⟨⟩
    rfl
  · rintro rfl
    exact Leads.nil stack

theorem leads_cons_iff : Leads stack (c :: rest) final ↔
    ∃ behind tail, token? stack c rest = some (behind, tail) ∧ Leads behind tail final := by
  constructor
  · rintro (_ | ⟨first, more⟩)
    exact ⟨_, _, first, more⟩
  · rintro ⟨behind, tail, first, more⟩
    exact Leads.step first more

theorem leads_of_token? (h : token? stack c rest = some (behind, tail)) :
    Leads stack (c :: rest) final ↔ Leads behind tail final := by
  rw [leads_cons_iff, h]
  simp

end

/-! The scan goes the same way -/

theorem map_fst_bracketed (c : Char) (line : Nat) (stack : OpenBrackets) :
    (bracketed c line stack).toOption.map (List.map Prod.fst) = turn? (stack.map Prod.fst) c := by
  unfold bracketed turn?
  split_ifs with hopens hfull hcloses
  · rw [opened, if_pos (by simpa using hfull)]
    rfl
  · rw [opened, if_neg (by simpa using hfull)]
    rfl
  · cases stack with
    | nil => rfl
    | cons d outer =>
      simp only [closed, List.map_cons]
      split_ifs <;> rfl
  · rfl

theorem isPrintable_ne_null {c : Char} (h : isPrintable c = true) : c.toNat ≠ 0 := by
  intro hzero
  unfold isPrintable at h
  rw [hzero] at h
  exact absurd h (by decide)

theorem mayContinueName_ne_null {c : Char} (h : mayContinueName c = true) : c.toNat ≠ 0 := by
  intro hzero
  obtain rfl : c = Char.ofNat 0 := Char.toNat_inj.1 (hzero.trans (by decide))
  exact absurd h (by decide)

theorem isGap_ne_null {c : Char} (h : isGap c = true) : c.toNat ≠ 0 := by
  unfold isGap at h
  simp only [Bool.or_eq_true, decide_eq_true_eq] at h
  rcases h with (rfl | rfl) | h
  · decide
  · decide
  · omega

theorem eats_dropWhile {p : Char → Bool} {cs : List Char} (h : ∀ c ∈ cs.takeWhile p, c.toNat ≠ 0) :
    Eats cs (cs.dropWhile p) :=
  ⟨cs.takeWhile p, List.takeWhile_append_dropWhile.symm, h⟩

section
variable {quote : Char} {cs body tail : List Char}

theorem mem_of_mem_readBody (h : readBody quote cs = some (body, tail)) {c : Char} (hc : c ∈ body) : c ∈ cs := by
  obtain ⟨opening, closing, rfl, -⟩ := readBody_eq_some h
  simp [hc]

theorem readBody_eats (hquote : quote.toNat ≠ 0) (h : readBody quote cs = some (body, tail))
    (hnull : hasNull body = false) : Eats cs tail := by
  obtain ⟨opening, closing, heq, hquotes⟩ := readBody_eq_some h
  refine ⟨opening ++ body ++ closing, heq, fun c hc hzero => ?_⟩
  have hmem : c ∈ body ∨ c ∈ opening ++ closing := by
    simp only [List.mem_append] at hc ⊢
    tauto
  rcases hmem with hmem | hmem
  · exact hasNull_eq_false.1 hnull c hmem hzero
  · exact hquote (hquotes c hmem ▸ hzero)

end

/-- What the scan does with the first token of a text. -/
theorem surface_step (n line : Nat) (stack : OpenBrackets) (c : Char) (rest : List Char) :
    (token? (stack.map Prod.fst) c rest = none ∧
      ((∃ f, surface (n + 1) line stack (c :: rest) = .error f) ∨ ∃ d ∈ c :: rest, d.toNat = 0)) ∨
    ∃ line' behind tail, token? (stack.map Prod.fst) c rest = some (behind.map Prod.fst, tail) ∧
      surface (n + 1) line stack (c :: rest) = surface n line' behind tail ∧ c.toNat ≠ 0 ∧ Eats rest tail := by
  unfold token?
  rw [surface.eq_def]
  dsimp only
  by_cases hline : c = '\n'
  · rw [if_pos hline, if_pos hline]
    exact Or.inr ⟨_, _, _, rfl, rfl, by rw [hline]; decide, Eats.refl rest⟩
  rw [if_neg hline, if_neg hline]
  by_cases hgap : isGap c = true
  · rw [if_pos hgap, if_pos hgap]
    exact Or.inr ⟨_, _, _, rfl, rfl, isGap_ne_null hgap, Eats.refl rest⟩
  rw [if_neg hgap, if_neg hgap]
  by_cases hcomment : c = '#'
  · rw [if_pos hcomment, if_pos hcomment]
    split_ifs with hnull
    · obtain ⟨d, hd, hzero⟩ := hasNull_eq_true.1 hnull
      exact Or.inl ⟨rfl, Or.inr ⟨d, List.mem_cons_of_mem c ((List.takeWhile_sublist _).subset hd), hzero⟩⟩
    · exact Or.inr ⟨_, _, _, rfl, rfl, by rw [hcomment]; decide,
        eats_dropWhile (hasNull_eq_false.1 (by simpa using hnull))⟩
  rw [if_neg hcomment, if_neg hcomment]
  by_cases hslash : c = '\\'
  · rw [if_pos hslash, if_pos hslash]
    split
    · next tail =>
      exact Or.inr ⟨_, _, _, rfl, rfl, by rw [hslash]; decide, (Eats.refl tail).cons (by decide)⟩
    · next hne =>
      refine Or.inl ⟨rfl, Or.inl ?_⟩
      split
      · exact absurd rfl (hne _)
      · exact ⟨_, rfl⟩
      · exact ⟨_, rfl⟩
  rw [if_neg hslash, if_neg hslash]
  by_cases hquote : (decide (c = '"') || decide (c = '\'')) = true
  · rw [if_pos hquote, if_pos hquote]
    cases hbody : readBody c rest with
    | none =>
      refine Or.inl ⟨rfl, Or.inl ?_⟩
      dsimp only
      split_ifs <;> exact ⟨_, rfl⟩
    | some found =>
      obtain ⟨body, tail⟩ := found
      dsimp only
      split_ifs with hnull
      · obtain ⟨d, hd, hzero⟩ := hasNull_eq_true.1 hnull
        exact Or.inl ⟨rfl, Or.inr ⟨d, List.mem_cons_of_mem c (mem_of_mem_readBody hbody hd), hzero⟩⟩
      · have hc : c.toNat ≠ 0 := by
          rcases (by simpa using hquote : c = '"' ∨ c = '\'') with rfl | rfl <;> decide
        exact Or.inr ⟨_, _, _, rfl, rfl, hc, readBody_eats hc hbody (by simpa using hnull)⟩
  rw [if_neg hquote, if_neg hquote]
  by_cases hname : mayStartName c = true
  · rw [if_pos hname, if_pos hname]
    cases hmisfit : misfit? (c :: rest.takeWhile mayContinueName) with
    | some d => exact Or.inl ⟨rfl, Or.inl ⟨_, rfl⟩⟩
    | none =>
      have hc : mayContinueName c = true := (Bool.and_eq_true_iff.1 hname).1
      exact Or.inr ⟨_, _, _, rfl, rfl, mayContinueName_ne_null hc,
        eats_dropWhile fun d hd => mayContinueName_ne_null (List.all_eq_true.1 List.all_takeWhile d hd)⟩
  rw [if_neg hname, if_neg hname]
  by_cases hnumber : (isAsciiDigit c || (decide (c = '.') && (rest.head?.map isAsciiDigit).getD false)) = true
  · rw [if_pos hnumber, if_pos hnumber]
    have hc : isAsciiDigit c = true ∨ c = '.' := by
      simp only [Bool.or_eq_true, Bool.and_eq_true, decide_eq_true_eq] at hnumber
      exact hnumber.imp id And.left
    cases hread : readNumber (c :: rest) with
    | none => exact Or.inl ⟨rfl, Or.inl ⟨_, rfl⟩⟩
    | some found =>
      obtain ⟨l, tail⟩ := found
      refine Or.inr ⟨_, _, _, rfl, rfl, ?_, readNumber_eats hc hread⟩
      rcases hc with hc | rfl
      · exact isAsciiDigit_ne_null hc
      · decide
  rw [if_neg hnumber, if_neg hnumber]
  by_cases hprintable : (!isPrintable c) = true
  · rw [if_pos hprintable, if_pos hprintable]
    exact Or.inl ⟨rfl, Or.inl ⟨_, rfl⟩⟩
  rw [if_neg hprintable, if_neg hprintable, ← map_fst_bracketed c line stack]
  cases hbracket : bracketed c line stack with
  | error f => exact Or.inl ⟨rfl, Or.inl ⟨_, rfl⟩⟩
  | ok behind => exact Or.inr ⟨_, _, _, rfl, rfl, isPrintable_ne_null (by simpa using hprintable), Eats.refl rest⟩

/-- A text is scanned without a fault, and has no null characters, if it leads from one place to the other. -/
theorem surface_eq_ok_iff {steps : Nat} (line : Nat) (stack : OpenBrackets) {cs : List Char} (final : List Char)
    (hsteps : cs.length < steps) :
    ((∃ out, surface steps line stack cs = .ok out ∧ out.map Prod.fst = final) ∧ ∀ c ∈ cs, c.toNat ≠ 0) ↔
      Leads (stack.map Prod.fst) cs final := by
  induction steps generalizing line stack cs with
  | zero => exact absurd hsteps (Nat.not_lt_zero _)
  | succ n ih =>
    cases cs with
    | nil => simp [surface]
    | cons c rest =>
      rw [leads_cons_iff]
      rcases surface_step n line stack c rest with ⟨hnone, hfault⟩ | ⟨line', behind, tail, hsome, hscan, hc, heats⟩
      · rw [hnone]
        refine iff_of_false ?_ (by simp)
        rintro ⟨⟨out, hout, -⟩, hnull⟩
        rcases hfault with ⟨f, hf⟩ | ⟨d, hd, hzero⟩
        · rw [hf] at hout
          cases hout
        · exact hnull d hd hzero
      · have htail : tail.length < n := lt_of_le_of_lt heats.length_le (Nat.lt_of_succ_lt_succ hsteps)
        have hnull : (∀ d ∈ c :: rest, d.toNat ≠ 0) ↔ ∀ d ∈ tail, d.toNat ≠ 0 := by
          simpa using not_congr (heats.cons hc).null_iff
        rw [hscan, hnull, ih line' behind htail, hsome]
        simp

theorem unifyLines_eq_self {cs : List Char} (h : '\r' ∉ cs) : unifyLines cs = cs := by
  fun_induction unifyLines cs with
  | case1 => simp at h
  | case2 => simp at h
  | case3 c rest _ _ ih => rw [ih fun hmem => h (List.mem_cons_of_mem c hmem)]
  | case4 => rfl

def isSound (cs : List Char) : Bool :=
  !(cs.any fun c => c.toNat = 0) && (surfaceFault? cs).isNone

/-- A sound text leads from no open bracket to no open bracket. -/
theorem isSound_iff {cs : List Char} (h : '\r' ∉ cs) : isSound cs = true ↔ Leads [] cs [] := by
  have hscan := surface_eq_ok_iff 1 [] [] (Nat.lt_succ_self cs.length)
  rw [List.map_nil] at hscan
  rw [← hscan, isSound, Bool.and_eq_true, and_comm]
  refine and_congr ?_ (by simp)
  unfold surfaceFault?
  rw [unifyLines_eq_self h]
  dsimp only
  cases surface (cs.length + 1) 1 [] cs with
  | error f => simp
  | ok out =>
    cases out with
    | nil => simp
    | cons bracket outer => simp

/-! Tokens by their first characters -/

section
variable {stack rest : List Char} {c : Char}

theorem plain_of_mayContinueName (h : mayContinueName c = true) :
    c ≠ '\n' ∧ isGap c = false ∧ c ≠ '#' ∧ c ≠ '\\' ∧ (decide (c = '"') || decide (c = '\'')) = false := by
  have hgap : isGap c = false := by
    by_contra hgap
    have hgap : isGap c = true := Bool.eq_true_of_not_eq_false hgap
    simp only [isGap, Bool.or_eq_true, decide_eq_true_eq] at hgap
    rcases hgap with (rfl | rfl) | hfeed
    · exact absurd h (by decide)
    · exact absurd h (by decide)
    · obtain rfl : c = Char.ofNat 12 := Char.toNat_inj.1 (hfeed.trans (by decide))
      exact absurd h (by decide)
  have hne : ∀ d, mayContinueName d = false → c ≠ d := by
    rintro d hd rfl
    rw [hd] at h
    cases h
  refine ⟨hne _ (by decide), hgap, hne _ (by decide), hne _ (by decide), ?_⟩
  simp [hne '"' (by decide), hne '\'' (by decide)]

theorem mayContinueName_of_isAsciiDigit (h : isAsciiDigit c = true) : mayContinueName c = true := by
  have hdigit : c.isDigit = true := by
    simp only [isAsciiDigit, Bool.and_eq_true, decide_eq_true_eq] at h
    simp only [Char.isDigit, Bool.and_eq_true, decide_eq_true_eq]
    exact h
  simp [mayContinueName, Char.isAlphanum, hdigit]

theorem token?_name (h : mayStartName c = true) : token? stack c rest =
    if (misfit? (c :: rest.takeWhile mayContinueName)).isSome then none
    else some (stack, rest.dropWhile mayContinueName) := by
  obtain ⟨hline, hgap, hcomment, hslash, hquote⟩ := plain_of_mayContinueName (Bool.and_eq_true_iff.1 h).1
  simp only [token?, hline, hgap, hcomment, hslash, hquote, h, Bool.false_eq_true, if_false, if_true]

theorem token?_digit (h : isAsciiDigit c = true) : token? stack c rest =
    (readNumber (c :: rest)).map fun r => (stack, r.2) := by
  obtain ⟨hline, hgap, hcomment, hslash, hquote⟩ := plain_of_mayContinueName (mayContinueName_of_isAsciiDigit h)
  have hname : mayStartName c = false := by simp [mayStartName, h]
  simp only [token?, hline, hgap, hcomment, hslash, hquote, hname, h, Bool.true_or, Bool.false_eq_true, if_false, if_true]

theorem token?_quote (h : c = '"' ∨ c = '\'') : token? stack c rest =
    match readBody c rest with
    | some (body, tail) => if hasNull body then none else some (stack, tail)
    | none => none := by
  rcases h with rfl | rfl <;> rfl
end

end Flowgraph.Program
