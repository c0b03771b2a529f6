import Flowgraph.Value.Literal
import Mathlib.Tactic

/-! Texts without line ends. Whatever a text holds, its quoted form has none, and so the literal form of a
value is one line: all that is quoted there is text, and the rest is digits and marks. -/

namespace Flowgraph

namespace Text

def OneLine (cs : List Char) : Prop :=
  ∀ c ∈ cs, c ≠ '\n' ∧ c ≠ '\r'

-- by the characters of the text, and not by all that there are
instance (cs : List Char) : Decidable (OneLine cs) :=
  List.decidableBAll _ cs

/-- The text is one line. -/
def IsLine (s : String) : Prop :=
  OneLine s.toList

section
variable {cs ds : List Char} {c : Char}

@[simp] theorem oneLine_nil : OneLine [] := fun _ h => nomatch h

@[simp] theorem oneLine_cons : OneLine (c :: cs) ↔ (c ≠ '\n' ∧ c ≠ '\r') ∧ OneLine cs :=
  List.forall_mem_cons

@[simp] theorem oneLine_append : OneLine (cs ++ ds) ↔ OneLine cs ∧ OneLine ds :=
  List.forall_mem_append

theorem OneLine.of_subset (h : OneLine ds) (hsub : cs ⊆ ds) : OneLine cs :=
  fun c hc => h c (hsub hc)

theorem oneLine_flatMap {α : Type} {as : List α} {f : α → List Char} (h : ∀ a ∈ as, OneLine (f a)) :
    OneLine (as.flatMap f) := by
  intro c hc
  obtain ⟨a, ha, hc⟩ := List.mem_flatMap.1 hc
  exact h a ha c hc

theorem oneLine_replicate (n : Nat) (h : c ≠ '\n' ∧ c ≠ '\r') : OneLine (List.replicate n c) := by
  intro d hd
  rw [List.eq_of_mem_replicate hd]
  exact h

theorem isLine_ofList (h : OneLine cs) : IsLine (String.ofList cs) := by
  rwa [IsLine, String.toList_ofList]

@[simp] theorem isLine_append {a b : String} : IsLine (a ++ b) ↔ IsLine a ∧ IsLine b := by
  rw [IsLine, String.toList_append, oneLine_append]
  rfl

theorem isLine_intercalate {sep : String} {parts : List String} (hsep : IsLine sep)
    (h : ∀ p ∈ parts, IsLine p) : IsLine (sep.intercalate parts) := by
  rw [IsLine, String.toList_intercalate]
  induction parts with
  | nil => exact oneLine_nil
  | cons p rest ih =>
    have hp : OneLine p.toList := h p List.mem_cons_self
    have hrest := ih fun q hq => h q (List.mem_cons_of_mem p hq)
    cases rest with
    | nil => simpa using hp
    | cons q rest =>
      rw [List.map_cons, List.map_cons, List.intercalate_cons_cons]
      exact oneLine_append.2 ⟨oneLine_append.2 ⟨hp, hsep⟩, hrest⟩

end

/-! Digits -/

theorem oneLine_digitChar (d : Nat) : d.digitChar ≠ '\n' ∧ d.digitChar ≠ '\r' := by
  by_cases h : d < 16
  · interval_cases d <;> decide
  · have hd : d.digitChar = '*' := by
      unfold Nat.digitChar
      repeat rw [if_neg (by omega)]
    rw [hd]
    decide

@[simp] theorem oneLine_toDigits {base : Nat} (hbase : 1 < base) (n : Nat) : OneLine (Nat.toDigits base n) := by
  induction n using Nat.strongRecOn with
  | _ n ih =>
    rw [Nat.toDigits_eq_if hbase]
    split_ifs with hn
    · exact oneLine_cons.2 ⟨oneLine_digitChar n, oneLine_nil⟩
    · have hless : n / base < n := Nat.div_lt_self (by omega) hbase
      exact oneLine_append.2 ⟨ih _ hless, oneLine_cons.2 ⟨oneLine_digitChar _, oneLine_nil⟩⟩

@[simp] theorem isLine_toString_nat (n : Nat) : IsLine (toString n) := by
  rw [Nat.toString_eq_ofList_toDigits]
  exact isLine_ofList (oneLine_toDigits (by omega) n)

@[simp] theorem isLine_toString_int (n : Int) : IsLine (toString n) := by
  cases n with
  | ofNat n => exact isLine_toString_nat n
  | negSucc n => exact isLine_append.2 ⟨isLine_ofList (by decide), isLine_toString_nat (n + 1)⟩

/-! Quoted texts -/

theorem oneLine_hex (width n : Nat) : OneLine (hex width n) :=
  oneLine_append.2 ⟨oneLine_replicate _ (by decide), oneLine_toDigits (by omega) n⟩

theorem oneLine_escapeChar {quote : Char} (hquote : quote ≠ '\n' ∧ quote ≠ '\r') (c : Char) :
    OneLine (escapeChar quote c) := by
  unfold escapeChar
  split_ifs with h hnewline hreturn
  · have hc : c ≠ '\n' ∧ c ≠ '\r' := by
      rcases (by simpa using h : c = quote ∨ c = '\\') with rfl | rfl
      · exact hquote
      · decide
    simp [hc]
  · decide
  · decide
  · decide
  · simp [hnewline, hreturn]
  all_goals simp [oneLine_hex]

@[simp] theorem isLine_quoted (s : String) : IsLine (quoted s) := by
  have hquote : chooseQuote s.toList ≠ '\n' ∧ chooseQuote s.toList ≠ '\r' := by
    unfold chooseQuote
    split_ifs <;> decide
  refine isLine_ofList ?_
  unfold quotedChars
  simp [hquote, oneLine_flatMap fun c _ => oneLine_escapeChar hquote c]

end Text

open Text

/-! Values -/

@[simp] theorem isLine_boolText (b : Bool) : IsLine (boolText b) := by
  cases b <;> exact isLine_ofList (by decide)

namespace Decimal

theorem oneLine_zeros (n : Nat) : OneLine (zeros n) :=
  oneLine_replicate n (by decide)

theorem oneLine_digitsOf (n : Nat) : OneLine (digitsOf n) :=
  oneLine_toDigits (by omega) n

theorem oneLine_exponentText (e : Int) : OneLine (exponentText e) := by
  have hsign : (if e < 0 then '-' else '+') ≠ '\n' ∧ (if e < 0 then '-' else '+') ≠ '\r' := by
    split_ifs <;> decide
  have hdigits := oneLine_append.2 ⟨oneLine_zeros (2 - (digitsOf e.natAbs).length), oneLine_digitsOf e.natAbs⟩
  exact oneLine_cons.2 ⟨by decide, oneLine_cons.2 ⟨hsign, hdigits⟩⟩

theorem oneLine_digits_shortest (b : Binary) : OneLine b.shortest.digits := by
  unfold Binary.shortest
  dsimp only
  split
  · decide
  · next n count _ =>
    refine (oneLine_digitsOf n).of_subset fun c hc => ?_
    exact List.mem_reverse.1 ((List.dropWhile_sublist _).subset (List.mem_reverse.1 hc))

theorem Digits.oneLine_render {d : Digits} (h : OneLine d.digits) : OneLine d.render := by
  have htake : ∀ n, OneLine (d.digits.take n) := fun n => h.of_subset (List.take_subset n _)
  have hdrop : ∀ n, OneLine (d.digits.drop n) := fun n => h.of_subset (List.drop_subset n _)
  unfold Digits.render
  split_ifs
  · unfold Digits.positional
    dsimp only
    split_ifs
    · simp [h, oneLine_zeros]
    · simp [h, oneLine_zeros]
    · simp [htake, hdrop]
  · unfold Digits.scientific
    refine oneLine_append.2 ⟨oneLine_append.2 ⟨htake 1, ?_⟩, oneLine_exponentText _⟩
    split_ifs
    · exact oneLine_nil
    · exact oneLine_cons.2 ⟨by decide, hdrop 1⟩

@[simp] theorem isLine_render (x : Float) : IsLine (render x) := by
  have hsign : ∀ negative, OneLine (signText negative) := by decide
  refine isLine_ofList ?_
  unfold renderChars
  split
  · decide
  · simp [hsign]
  · split_ifs
    · simp [hsign]
    · simp [hsign, Digits.oneLine_render (oneLine_digits_shortest _)]

end Decimal

namespace Value

mutual

@[simp] theorem isLine_literal : ∀ v : Value, IsLine v.literal
  | .null => isLine_ofList (by decide)
  | .bool b => isLine_boolText b
  | .int n => isLine_toString_int n
  | .float x => Decimal.isLine_render x
  | .text s => isLine_quoted s
  | .list items => by
    simp only [literal, isLine_append, isLine_literalItems items, and_true]
    exact ⟨isLine_ofList (by decide), isLine_ofList (by decide)⟩
  | .object fields => by
    simp only [literal, isLine_append, isLine_literalFields fields, and_true]
    exact ⟨isLine_ofList (by decide), isLine_ofList (by decide)⟩

theorem isLine_literalItems : ∀ vs : List Value, IsLine (literalItems vs)
  | [] => isLine_ofList (by decide)
  | [v] => isLine_literal v
  | v :: w :: rest => by
    simp only [literalItems, isLine_append, isLine_literal v, isLine_literalItems (w :: rest), true_and, and_true]
    exact isLine_ofList (by decide)

theorem isLine_literalFields : ∀ fields : List (String × Value), IsLine (literalFields fields)
  | [] => isLine_ofList (by decide)
  | [(key, v)] => by
    simp only [literalFields, isLine_append, isLine_quoted, isLine_literal v, true_and, and_true]
    exact isLine_ofList (by decide)
  | (key, v) :: f :: rest => by
    simp only [literalFields, isLine_append, isLine_quoted, isLine_literal v, isLine_literalFields (f :: rest),
      true_and, and_true]
    exact ⟨isLine_ofList (by decide), isLine_ofList (by decide)⟩

end

end Value

end Flowgraph
