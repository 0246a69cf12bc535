import Mathlib.Logic.Basic

/-! A log that is read back record by record. Each record is checked against what the
records before it come to, reading stops at the first that does not fit, and what was
read is kept up to the last record that ends a group. -/

namespace Literaft.Library

variable {R S : Type} {accept : S → R → Option S} {ends : R → Bool} {record : Nat → R} {start : S}

/-- Reads `count` records behind record `n`. -/
def scan (accept : S → R → Option S) (ends : R → Bool) (record : Nat → R) : Nat → Nat → S → Nat × S → Nat × S
  | 0, _, _, kept => kept
  | count + 1, n, state, kept =>
    match accept state (record (n + 1)) with
    | none => kept
    | some next => scan accept ends record count (n + 1) next (if ends (record (n + 1)) then (n + 1, next) else kept)

/-- What the first `n` records come to, if all of them fit. -/
def running (accept : S → R → Option S) (start : S) (record : Nat → R) : Nat → Option S
  | 0 => some start
  | n + 1 => (running accept start record n).bind fun state => accept state (record (n + 1))

theorem running_congr {other : Nat → R} {n : Nat} (same : ∀ m, 1 ≤ m → m ≤ n → other m = record m) :
    running accept start other n = running accept start record n := by
  induction n with
  | zero => rfl
  | succ n ih =>
    rw [running, running, ih fun m positive inside => same m positive (Nat.le_succ_of_le inside),
      same (n + 1) (Nat.le_add_left 1 n) (Nat.le_refl _)]

theorem running_before {m n : Nat} (fits : (running accept start record n).isSome) (inside : m ≤ n) :
    (running accept start record m).isSome := by
  induction n with
  | zero =>
    obtain rfl : m = 0 := Nat.le_zero.mp inside
    exact fits
  | succ n ih =>
    rcases Nat.lt_or_eq_of_le inside with before | rfl
    · apply ih _ (Nat.le_of_lt_succ before)
      rw [running] at fits
      exact Option.isSome_of_isSome_bind fits
    · exact fits

private theorem scan_quiet {count n : Nat} {state : S} (kept : Nat × S) (reached : running accept start record n = some state)
    (quiet : ∀ m, n < m → m ≤ n + count → (running accept start record m).isSome → ends (record m) = false) :
    scan accept ends record count n state kept = kept := by
  induction count generalizing n state with
  | zero => rfl
  | succ count ih =>
    rw [scan]
    cases taken : accept state (record (n + 1)) with
    | none => rfl
    | some next =>
      have further : running accept start record (n + 1) = some next := by rw [running, reached, Option.bind_some, taken]
      have plain := quiet (n + 1) (Nat.lt_succ_self n) (by omega) (by rw [further]; rfl)
      rw [plain]
      exact ih further fun m later inside => quiet m (by omega) (by omega)

private theorem scan_through {count gap n : Nat} {state final : S} (kept : Nat × S)
    (reached : running accept start record n = some state) (fits : running accept start record (n + gap) = some final)
    (ended : gap = 0 ∧ kept = (n, state) ∨ gap ≠ 0 ∧ ends (record (n + gap)) = true) :
    scan accept ends record (gap + count) n state kept = scan accept ends record count (n + gap) final (n + gap, final) := by
  induction gap generalizing n state kept with
  | zero =>
    obtain ⟨-, rfl⟩ := ended.resolve_right fun wrong => wrong.1 rfl
    obtain rfl : state = final := Option.some.inj (reached.symm.trans fits)
    rw [Nat.zero_add]
    rfl
  | succ gap ih =>
    have last := (ended.resolve_left fun wrong => nomatch wrong.1).2
    rw [show n + (gap + 1) = n + 1 + gap by omega] at fits last ⊢
    obtain ⟨next, further⟩ : ∃ next, running accept start record (n + 1) = some next :=
      Option.isSome_iff_exists.mp (running_before (by rw [fits]; rfl) (Nat.le_add_right _ _))
    have taken : accept state (record (n + 1)) = some next := by
      rw [running, reached, Option.bind_some] at further
      exact further
    rw [show gap + 1 + count = gap + count + 1 by omega, scan, taken]
    refine ih _ further fits ?_
    by_cases done : gap = 0
    · subst done
      exact .inl ⟨rfl, if_pos last⟩
    · exact .inr ⟨done, last⟩

/-- Once `n` records fit and the last of them ends a group, reading goes on from there. -/
private theorem scan_skip {count n : Nat} {final : S} (fits : running accept start record n = some final) (inside : n ≤ count)
    (ended : n = 0 ∨ ends (record n) = true) : scan accept ends record count 0 start (0, start) =
      scan accept ends record (count - n) n final (n, final) := by
  obtain ⟨rest, rfl⟩ := Nat.exists_eq_add_of_le inside
  have reached : running accept start record (0 + n) = some final := by
    rw [Nat.zero_add]
    exact fits
  have last : n = 0 ∧ (0, start) = (0, start) ∨ n ≠ 0 ∧ ends (record (0 + n)) = true := by
    rw [Nat.zero_add]
    by_cases empty : n = 0
    · exact .inl ⟨empty, rfl⟩
    · exact .inr ⟨empty, ended.resolve_left empty⟩
  have through : scan accept ends record (n + rest) 0 start (0, start) =
      scan accept ends record rest (0 + n) final (0 + n, final) := scan_through _ rfl reached last
  rw [through, Nat.zero_add, Nat.add_sub_cancel_left]

private theorem scan_grows {count n : Nat} {state : S} (kept : Nat × S) (behind : kept.1 ≤ n) :
    kept.1 ≤ (scan accept ends record count n state kept).1 := by
  induction count generalizing n state kept with
  | zero => exact Nat.le_refl _
  | succ count ih =>
    rw [scan]
    split
    · exact Nat.le_refl _
    · split
      · exact Nat.le_trans (Nat.le_succ_of_le behind) (ih (n + 1, _) (Nat.le_refl (n + 1)))
      · exact ih kept (Nat.le_succ_of_le behind)

/-- Reading keeps `n` records if they fit, the last of them ends a group, and no record
behind it that fits ends another. -/
theorem scan_eq {count n : Nat} {final : S} (fits : running accept start record n = some final) (inside : n ≤ count)
    (ended : n = 0 ∨ ends (record n) = true)
    (quiet : ∀ m, n < m → m ≤ count → (running accept start record m).isSome → ends (record m) = false) :
    scan accept ends record count 0 start (0, start) = (n, final) := by
  rw [scan_skip fits inside ended]
  exact scan_quiet _ fits fun m later within => quiet m later (by omega)

/-- Whatever stands behind them, `n` records that fit and end a group are kept. -/
theorem le_scan {count n : Nat} {final : S} (fits : running accept start record n = some final) (inside : n ≤ count)
    (ended : n = 0 ∨ ends (record n) = true) : n ≤ (scan accept ends record count 0 start (0, start)).1 := by
  rw [scan_skip fits inside ended]
  exact scan_grows (n, final) (Nat.le_refl n)

end Literaft.Library
