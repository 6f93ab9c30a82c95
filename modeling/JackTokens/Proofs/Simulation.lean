import JackTokens.Proofs.Continuation

namespace JackTokens

variable {ε ζ α β : Type}

/-- A run that gave `x` went the way of one that gave `y`: to the same answer and a related cursor,
or up to a failure that `Cut` admits where the other run is. -/
def Follows (R : Cursor → Cursor → Prop) (Cut : ReadError → Cursor → Prop) (wrap : ReadError → ε)
    (x y : Except ε α × Cursor) : Prop :=
  (x.1 = y.1 ∧ R x.2 y.2) ∨ ∃ cause, x.1 = .error (wrap cause) ∧ Cut cause y.2

/-- Cursors related by `R` cannot be told apart by reading a character, unless the first one stops
at a failure. Such a failure stays admitted however far the other one goes on. -/
structure Simulation (R : Cursor → Cursor → Prop) (Cut : ReadError → Cursor → Prop) : Prop where
  peek {c d : Cursor} : R c d → Follows R Cut id c.peek d.peek
  next {c d : Cursor} : R c d → Follows R Cut id c.next d.next
  position {c d : Cursor} : R c d → c.position = d.position
  nextPosition {c d : Cursor} : R c d → c.nextPosition = d.nextPosition
  later {cause : ReadError} {d e : Cursor} :
    Cut cause d → e.remaining ≤ d.remaining → Cut cause e

variable {R : Cursor → Cursor → Prop} {Cut : ReadError → Cursor → Prop}

theorem Follows.answer {wrap : ReadError → ε} {c d : Cursor} (rel : R c d)
    (result : Except ε α) : Follows R Cut wrap (result, c) (result, d) :=
  .inl ⟨rfl, rel⟩

namespace Simulation

/-- Runs stay together as long as their steps do. -/
theorem andThen (sim : Simulation R Cut) {wrap : ReadError → ε} {x y : Except ε α × Cursor}
    (first : Follows R Cut wrap x y) (outer : ε → ζ) {k : α → Cursor → Except ζ β × Cursor}
    (on : ∀ a c d, x = (.ok a, c) → R c d → Follows R Cut (outer ∘ wrap) (k a c) (k a d))
    (less : ∀ a d, (k a d).2.remaining ≤ d.remaining) :
    Follows R Cut (outer ∘ wrap) (JackTokens.andThen x outer k) (JackTokens.andThen y outer k) := by
  rcases first with ⟨same, rel⟩ | ⟨cause, stopped, cut⟩
  · obtain ⟨result, c⟩ := x
    obtain ⟨_, d⟩ := y
    cases same
    cases result with
    | error error => exact .answer rel _
    | ok a => exact on a c d rfl rel
  · obtain ⟨_, c⟩ := x
    cases stopped
    exact .inr ⟨cause, rfl, sim.later cut (andThen_remaining_le outer (Nat.le_refl _) less)⟩

theorem nextIf (sim : Simulation R Cut) {c d : Cursor} (rel : R c d) (p : Char → Bool) :
    Follows R Cut id (c.nextIf p) (d.nextIf p) := by
  rw [Cursor.nextIf_eq, Cursor.nextIf_eq]
  refine sim.andThen (sim.peek rel) id ?_ ?_
  · rintro (_ | x) c d _ rel
    · exact .answer rel _
    · dsimp only
      split
      next => exact sim.next rel
      next => exact .answer rel _
  · rintro (_ | x) d
    · exact Nat.le_refl _
    · dsimp only
      split
      next => exact d.next_remaining_le
      next => exact Nat.le_refl _

theorem readMore (sim : Simulation R Cut) {c d : Cursor} (rel : R c d) (p : Char → Bool)
    (read : List Char) : Follows R Cut id (c.readMore p read) (d.readMore p read) := by
  induction hn : c.remaining using Nat.strongRecOn generalizing c d read with
  | ind n ih =>
    rw [Cursor.readMore_eq c, Cursor.readMore_eq d]
    refine sim.andThen (sim.nextIf rel p) id ?_ ?_
    · rintro (_ | x) c' d' hc rel'
      · exact .answer rel' _
      · exact ih _ (hn ▸ Cursor.remaining_lt_of_nextIf hc) rel' (x :: read) rfl
    · rintro (_ | x) d'
      · exact Nat.le_refl _
      · exact d'.readMore_remaining_le p (x :: read)

theorem readWhile (sim : Simulation R Cut) {c d : Cursor} (rel : R c d) (p : Char → Bool) :
    Follows R Cut id (c.readWhile p) (d.readWhile p) :=
  sim.readMore rel p []

theorem skipBlock (sim : Simulation R Cut) {c d : Cursor} (rel : R c d) (opening : Position) :
    Follows R Cut LexError.unreadable (c.skipBlock opening) (d.skipBlock opening) := by
  induction hn : c.remaining using Nat.strongRecOn generalizing c d with
  | ind n ih =>
    rw [Cursor.skipBlock_eq c, Cursor.skipBlock_eq d]
    refine sim.andThen (sim.next rel) LexError.unreadable ?_ ?_
    · rintro (_ | x) c' d' hc rel'
      · exact .answer rel' _
      · have less := Cursor.remaining_lt_of_next hc
        dsimp only
        split
        next =>
          refine sim.andThen (sim.nextIf rel' _) LexError.unreadable ?_ ?_
          · rintro (_ | y) c'' d'' hc' rel''
            · have le := c'.nextIf_remaining_le (· == '/')
              rw [hc'] at le
              exact ih _ (hn ▸ Nat.lt_of_le_of_lt le less) rel'' rfl
            · exact .answer rel'' _
          · rintro (_ | y) d''
            · exact d''.skipBlock_remaining_le opening
            · exact Nat.le_refl _
        next => exact ih _ (hn ▸ less) rel' rfl
    · rintro (_ | x) d'
      · exact Nat.le_refl _
      · dsimp only
        split
        next =>
          refine andThen_remaining_le _ (d'.nextIf_remaining_le _) ?_
          rintro (_ | y) d''
          · exact d''.skipBlock_remaining_le opening
          · exact Nat.le_refl _
        next => exact d'.skipBlock_remaining_le opening

theorem skipLine (sim : Simulation R Cut) {c d : Cursor} (rel : R c d) :
    Follows R Cut LexError.unreadable c.skipLine d.skipLine := by
  rw [Cursor.skipLine_eq, Cursor.skipLine_eq]
  exact sim.andThen (sim.readWhile rel _) LexError.unreadable (fun _ _ _ _ rel' => .answer rel' _)
    fun _ _ => Nat.le_refl _

theorem skipComment (sim : Simulation R Cut) {c d : Cursor} (rel : R c d) (opening : Position) :
    Follows R Cut LexError.unreadable (c.skipComment opening) (d.skipComment opening) := by
  have line : ∀ d : Cursor, (JackTokens.andThen d.skipLine id fun _ behind =>
      ((.ok true : Except LexError Bool), behind)).2.remaining ≤ d.remaining := fun d =>
    andThen_remaining_le _ d.skipLine_remaining_le fun _ _ => Nat.le_refl _
  have block : ∀ d : Cursor, (JackTokens.andThen (d.skipBlock opening) id fun _ behind =>
      ((.ok true : Except LexError Bool), behind)).2.remaining ≤ d.remaining := fun d =>
    andThen_remaining_le _ (d.skipBlock_remaining_le opening) fun _ _ => Nat.le_refl _
  rw [Cursor.skipComment_eq, Cursor.skipComment_eq]
  refine sim.andThen (sim.nextIf rel _) LexError.unreadable ?_ ?_
  · rintro (_ | x) c' d' _ rel'
    · refine sim.andThen (sim.nextIf rel' _) LexError.unreadable ?_ ?_
      · rintro (_ | y) c'' d'' _ rel''
        · exact .answer rel'' _
        · exact sim.andThen (sim.skipBlock rel'' opening) id (fun _ _ _ _ rel => .answer rel _)
            fun _ _ => Nat.le_refl _
      · rintro (_ | y) d''
        · exact Nat.le_refl _
        · exact block d''
    · exact sim.andThen (sim.skipLine rel') id (fun _ _ _ _ rel => .answer rel _)
        fun _ _ => Nat.le_refl _
  · rintro (_ | x) d'
    · refine andThen_remaining_le _ (d'.nextIf_remaining_le _) ?_
      rintro (_ | y) d''
      · exact Nat.le_refl _
      · exact block d''
    · exact line d'

theorem skipGap (sim : Simulation R Cut) {c d : Cursor} (rel : R c d) :
    Follows R Cut LexError.unreadable c.skipGap d.skipGap := by
  induction hn : c.remaining using Nat.strongRecOn generalizing c d with
  | ind n ih =>
    rw [Cursor.skipGap_eq c, Cursor.skipGap_eq d]
    refine sim.andThen (sim.next rel) LexError.unreadable ?_ ?_
    · rintro (_ | x) c' d' hc rel'
      · exact .answer rel' _
      · have less := Cursor.remaining_lt_of_next hc
        dsimp only
        split
        next => exact ih _ (hn ▸ less) rel' rfl
        split
        next =>
          rw [sim.position rel']
          refine sim.andThen (sim.skipComment rel' _) id ?_ ?_
          · rintro (_ | _) c'' d'' hc' rel''
            · exact .answer rel'' _
            · have le := c'.skipComment_remaining_le d'.position
              rw [hc'] at le
              exact ih _ (hn ▸ Nat.lt_of_le_of_lt le less) rel'' rfl
          · rintro (_ | _) d''
            · exact Nat.le_refl _
            · exact d''.skipGap_remaining_le
        next => exact .answer rel' _
    · rintro (_ | x) d'
      · exact Nat.le_refl _
      · dsimp only
        split
        next => exact d'.skipGap_remaining_le
        split
        next =>
          refine andThen_remaining_le _ (d'.skipComment_remaining_le _) ?_
          rintro (_ | _) d''
          · exact Nat.le_refl _
          · exact d''.skipGap_remaining_le
        next => exact Nat.le_refl _

theorem readString (sim : Simulation R Cut) {c d : Cursor} (rel : R c d) (start : Position) :
    Follows R Cut LexError.unreadable (c.readString start) (d.readString start) := by
  rw [Cursor.readString_eq, Cursor.readString_eq]
  refine sim.andThen (sim.readWhile rel _) LexError.unreadable ?_ ?_
  · rintro content c' d' _ rel'
    refine sim.andThen (sim.nextIf rel' _) LexError.unreadable ?_ ?_
    · rintro (_ | x) c'' d'' _ rel''
      · exact .answer rel'' _
      · exact .answer rel'' _
    · rintro (_ | x) d''
      · exact Nat.le_refl _
      · exact Nat.le_refl _
  · rintro content d'
    refine andThen_remaining_le _ (d'.nextIf_remaining_le _) ?_
    rintro (_ | x) d''
    · exact Nat.le_refl _
    · exact Nat.le_refl _

theorem readToken (sim : Simulation R Cut) {c d : Cursor} (rel : R c d) (first : Char) :
    Follows R Cut LexError.unreadable (c.readToken first) (d.readToken first) := by
  unfold Cursor.readToken
  rw [sim.position rel]
  split
  next =>
    rw [Cursor.readWord_eq, Cursor.readWord_eq]
    exact sim.andThen (sim.readWhile rel _) LexError.unreadable (fun _ _ _ _ rel' => .answer rel' _)
      fun _ _ => Nat.le_refl _
  split
  next => exact sim.readString rel d.position
  split
  next =>
    rw [Cursor.readInteger_eq, Cursor.readInteger_eq]
    refine sim.andThen (sim.readWhile rel _) LexError.unreadable ?_ ?_
    · intro more c' d' _ rel'
      split
      next => exact .answer rel' _
      next => exact .answer rel' _
    · intro more d'
      split
      next => exact Nat.le_refl _
      next => exact Nat.le_refl _
  next =>
    unfold Cursor.readSymbol
    split
    next => exact .answer rel _
    next => exact .answer rel _

theorem readLexeme (sim : Simulation R Cut) {c d : Cursor} (rel : R c d) :
    Follows R Cut LexError.unreadable c.readLexeme d.readLexeme := by
  rw [Cursor.readLexeme_eq, Cursor.readLexeme_eq]
  refine sim.andThen (sim.skipGap rel) id ?_ ?_
  · rintro (_ | x) c' d' _ rel'
    · exact .answer rel' _
    · dsimp only
      rw [sim.position rel']
      refine sim.andThen (sim.readToken rel' x) id ?_ fun _ _ => Nat.le_refl _
      intro token c'' d'' _ rel''
      rw [sim.nextPosition rel'']
      exact .answer rel'' _
  · rintro (_ | x) d'
    · exact Nat.le_refl _
    · exact andThen_remaining_le _ (d'.readToken_remaining_le x) fun _ _ => Nat.le_refl _

end Simulation

end JackTokens
