import JackTokens.TextParser
import JackTokens.Proofs.Grammar

namespace JackTokens

namespace TextParser

variable {α β : Type} {p : TextParser α} {f : α → TextParser β} {a : α} {b : β}
  {s t rest : List Char}

/-- Before `rest` the parser reads all of `text` and takes it for `value`. -/
def Reads (p : TextParser α) (text : List Char) (value : α) (rest : List Char) : Prop :=
  p (text ++ rest) = some (value, rest)

theorem bind_apply (p : TextParser α) (f : α → TextParser β) (cs : List Char) :
    (p >>= f) cs = (p cs).bind fun found => f found.1 found.2 := rfl

theorem bind_none {cs : List Char} (h : p cs = none) (f : α → TextParser β) :
    (p >>= f) cs = none := by
  rw [bind_apply, h]
  rfl

theorem orElse_apply (p q : TextParser α) (cs : List Char) :
    (p <|> q) cs = (p cs).orElse fun _ => q cs := by
  show (p cs <|> q cs) = _
  rcases p cs with _ | found
  · rfl
  · rfl

theorem reads_pure (a : α) (rest : List Char) : Reads (pure a) [] a rest := rfl

theorem Reads.bind (h : Reads p s a (t ++ rest)) (hf : Reads (f a) t b rest) :
    Reads (p >>= f) (s ++ t) b rest := by
  unfold Reads at h hf ⊢
  rw [bind_apply, List.append_assoc, h]
  exact hf

/-- The last step of a parser reads nothing more. -/
theorem Reads.last (h : Reads p s a rest) (hf : Reads (f a) [] b rest) :
    Reads (p >>= f) s b rest := by
  have whole := Reads.bind (t := []) h hf
  rw [List.append_nil] at whole
  exact whole

theorem Reads.returning (h : Reads p s a rest) (g : α → β) :
    Reads (p >>= fun found => pure (g found)) s (g a) rest :=
  h.last (reads_pure (g a) rest)

theorem Reads.orElse (h : Reads p s a rest) (q : TextParser α) : Reads (p <|> q) s a rest := by
  unfold Reads at h ⊢
  rw [orElse_apply, h]
  rfl

theorem Reads.orElse_right {q : TextParser α} (h : Reads q s a rest) (none : p (s ++ rest) = none) :
    Reads (p <|> q) s a rest := by
  unfold Reads at h ⊢
  rw [orElse_apply, none]
  exact h

theorem reads_one {p : Char → Bool} {c : Char} (h : p c = true) (rest : List Char) :
    Reads (one p) [c] c rest := by
  show (if p c then some (c, rest) else none) = _
  rw [if_pos h]

theorem reads_exactly (word rest : List Char) : Reads (exactly word) word () rest := by
  induction word with
  | nil => rfl
  | cons c word ih =>
    have first : Reads (one (· == c)) [c] c (word ++ rest) := reads_one (beq_self_eq_true c) _
    exact first.bind ih

theorem one_none {p : Char → Bool} {cs : List Char} (h : Stops p cs) : one p cs = none := by
  cases cs with
  | nil => rfl
  | cons c cs =>
    show (if p c then some (c, cs) else none) = none
    rw [if_neg (by simp [stops_cons.mp h])]

theorem exactly_none {c : Char} {word cs : List Char} (h : Stops (· == c) cs) :
    exactly (c :: word) cs = none :=
  bind_none (one_none h) _

theorem reads_exactlyOf {p : Char → Bool} {n : Nat} (h : ∀ c ∈ s, p c = true)
    (length : s.length = n) (rest : List Char) : Reads (exactlyOf p n) s s rest := by
  subst length
  induction s with
  | nil => exact reads_pure [] rest
  | cons c s ih =>
    have first : Reads (one p) [c] c (s ++ rest) := reads_one (h c (by simp)) _
    have more := ih fun d hd => h d (by simp [hd])
    exact first.bind (more.last (reads_pure (c :: s) rest))

theorem reads_allOf {p : Char → Bool} (h : ∀ c ∈ s, p c = true) (hs : Stops p rest) :
    Reads (allOf p) s s rest := by
  have none : rest.takeWhile p = [] ∧ rest.dropWhile p = rest := by
    cases rest with
    | nil => exact ⟨rfl, rfl⟩
    | cons c rest =>
      have stopped := stops_cons.mp hs
      simp [stopped]
  unfold Reads allOf
  rw [List.takeWhile_append_of_pos h, List.dropWhile_append_of_pos h, none.1, none.2,
    List.append_nil]

theorem reads_someOf {p : Char → Bool} (h : ∀ c ∈ s, p c = true) (filled : s ≠ [])
    (hs : Stops p rest) : Reads (someOf p) s s rest := by
  cases s with
  | nil => exact absurd rfl filled
  | cons c s =>
    have first : Reads (one p) [c] c (s ++ rest) := reads_one (h c (by simp)) _
    have more : Reads (allOf p) s s rest := reads_allOf (fun d hd => h d (by simp [hd])) hs
    exact first.bind (more.last (reads_pure (c :: s) rest))

theorem reads_optional (h : Reads p s a rest) : Reads (optional p) s (some a) rest := by
  have found : Reads (some <$> p) s (some a) rest := by
    unfold Reads at h ⊢
    show (p (s ++ rest)).bind _ = _
    rw [h]
    rfl
  exact found.orElse _

theorem reads_optional_none (h : p rest = none) : Reads (optional p) [] none rest := by
  have refused : (some <$> p) rest = none := by
    show (p rest).bind _ = _
    rw [h]
    rfl
  exact Reads.orElse_right (reads_pure none rest) refused

/-- What `many` reads: one thing after the other, until there is none. -/
inductive Repeats (p : TextParser α) : List Char → List α → List Char → Prop
  | nil {rest : List Char} : p rest = none → Repeats p [] [] rest
  | cons {s text rest : List Char} {a : α} {as : List α} :
      Reads p s a (text ++ rest) → s ≠ [] → Repeats p text as rest →
      Repeats p (s ++ text) (a :: as) rest

theorem Repeats.reads_upTo {text : List Char} {as : List α} (h : Repeats p text as rest) {n : Nat}
    (enough : text.length ≤ n) : Reads (manyUpTo p n) text as rest := by
  induction h generalizing n with
  | @nil rest none =>
    cases n with
    | zero => rfl
    | succ n =>
      exact Reads.orElse_right (reads_pure [] rest) (bind_none none _)
  | @cons s text rest a as hp filled _ ih =>
    have long := List.length_pos_iff.mpr filled
    rw [List.length_append] at enough
    obtain ⟨m, rfl⟩ : ∃ m, n = m + 1 := ⟨n - 1, by omega⟩
    have more := ih (n := m) (by omega)
    exact (hp.bind (more.last (reads_pure (a :: as) rest))).orElse _

theorem Repeats.reads {text : List Char} {as : List α} (h : Repeats p text as rest) :
    Reads (many p) text as rest := by
  show manyUpTo p (text ++ rest).length (text ++ rest) = _
  exact h.reads_upTo (by simp)

theorem Repeats.single (h : Reads p s a rest) (filled : s ≠ []) (none : p rest = none) :
    Repeats p s [a] rest := by
  have repeats : Repeats p (s ++ []) [a] rest := .cons h filled (.nil none)
  rw [List.append_nil] at repeats
  exact repeats

/-- Things that are told apart from whatever follows them are read one by one. -/
theorem repeats_flatMap {γ : Type} {write : γ → List Char} {value : γ → α} {items : List γ}
    (reads : ∀ x ∈ items, ∀ rest, Reads p (write x) (value x) rest)
    (filled : ∀ x, write x ≠ []) (none : p rest = none) :
    Repeats p (items.flatMap write) (items.map value) rest := by
  induction items with
  | nil => exact .nil none
  | cons x items ih =>
    have more := ih fun y hy => reads y (List.mem_cons_of_mem x hy)
    exact .cons (reads x List.mem_cons_self _) (filled x) more

theorem reads_many {write : α → List Char} (reads : ∀ x rest, Reads p (write x) x rest)
    (filled : ∀ x, write x ≠ []) (none : p rest = none) (items : List α) :
    Reads (many p) (items.flatMap write) items rest := by
  have repeats : Repeats p (items.flatMap write) (items.map id) rest :=
    repeats_flatMap (fun x _ => reads x) filled none
  rw [List.map_id] at repeats
  exact repeats.reads

theorem reads_separated {separator : TextParser β} {as : List α} (h : Reads p s a (t ++ rest))
    (more : Repeats (separator >>= fun _ => p) t as rest) :
    Reads (separated p separator) (s ++ t) (a :: as) rest :=
  h.bind (more.reads.last (reads_pure (a :: as) rest))

theorem reads_finish : Reads finish [] () [] := rfl

/-- A parser that reads a whole text gives what it takes it for. -/
theorem Reads.whole (h : Reads p s a []) : (p s).map (·.1) = some a := by
  unfold Reads at h
  rw [List.append_nil] at h
  rw [h]
  rfl

theorem reads_lift {found : Option α} (h : found = some a) (rest : List Char) :
    Reads (StateT.lift found) [] a rest := by
  rw [h]
  rfl

end TextParser

end JackTokens
