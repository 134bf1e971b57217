import Mathlib.Logic.ExistsUnique
import StackLowering.Hash.Fingerprint

/-!
# What the ordered fold keeps

A step of the fold multiplies the hash by an odd constant and adds the argument under the marker of its
position. Both the hash before the step and the argument can be told from the result if the other one
is known (`Fingerprint.foldStep_inj_left`, `Fingerprint.foldStep_inj_right`). So a fold forgets neither
what it starts with nor any single argument, whatever comes before and after it and however long the
list is (`Fingerprint.fold_separates`).

Nothing is assumed of the fold but that its two constants can be undone: multiplication by the
separator has an inverse among the 64-bit words, and a marker is taken off by the same exclusive or. In
particular the markers need not differ from each other. They matter for lists that differ in several
places, about which nothing is said here: as there are more lists than words, some of them have to
meet.

That two lists differ once is told by positions (`Fingerprint.DifferOnce`) and not by the way they are
built, so that it can be asked of any two lists. For the induction it is taken apart along the first
argument (`Fingerprint.DifferOnce.cases_cons`).
-/

namespace StackLowering

namespace Fingerprint

variable {a b seed seed' : UInt64} {arg arg' : Fingerprint} {args args' : List Fingerprint}
  {position : Nat}

/-- A fingerprint is its word. -/
theorem word_inj : arg.word = arg'.word ↔ arg = arg' := by
  refine ⟨fun h ↦ ?_, congrArg word⟩
  cases arg
  cases arg'
  exact congrArg mk h

/-! ### One step -/

/-- The inverse of the separator among the 64-bit words. -/
def separatorInverse : UInt64 := 0xd3f20f0a40208825

/-- The separator is odd, and so has an inverse among the 64-bit words. -/
theorem separator_mul_inverse : separator * separatorInverse = 1 := by decide

/-- Multiplication by the separator can be undone. -/
theorem mul_separator_inj : a * separator = b * separator ↔ a = b := by
  refine ⟨fun h ↦ ?_, congrArg (· * separator)⟩
  have hinverse := congrArg (· * separatorInverse) h
  simpa only [UInt64.mul_assoc, separator_mul_inverse, UInt64.mul_one] using hinverse

/-- What a step of the fold makes of the hash before it and the argument at a position. -/
def foldStep (position : Nat) (seed : UInt64) (arg : Fingerprint) : UInt64 :=
  seed * separator + (marker position ^^^ arg.word)

/-- A step tells the hash before it, since a multiplication by the separator can be undone. -/
theorem foldStep_inj_left : foldStep position seed arg = foldStep position seed' arg ↔
    seed = seed' :=
  (UInt64.add_left_inj _).trans mul_separator_inj

/-- A step tells its argument, since the marker can be taken off again. -/
theorem foldStep_inj_right : foldStep position seed arg = foldStep position seed arg' ↔
    arg = arg' :=
  (UInt64.add_right_inj _).trans ((UInt64.xor_right_inj _).trans word_inj)

/-! ### A whole fold -/

theorem foldFrom_cons (position : Nat) (seed : UInt64) (arg : Fingerprint)
    (args : List Fingerprint) : foldFrom position seed (arg :: args) =
      foldFrom (position + 1) (foldStep position seed arg) args := rfl

/-- However many arguments follow, different hashes to start with lead to different hashes. By
induction on the arguments, with the position and both hashes as variables. -/
theorem foldFrom_inj_left : foldFrom position seed args = foldFrom position seed' args ↔
    seed = seed' := by
  induction args generalizing position seed seed' with
  | nil => rfl
  | cons arg args ih => rw [foldFrom_cons, foldFrom_cons, ih, foldStep_inj_left]

/-- Two lists of the same length that differ in exactly one position. -/
def DifferOnce (args args' : List Fingerprint) : Prop :=
  args.length = args'.length ∧ ∃! i : Nat, args[i]? ≠ args'[i]?

/-- There is no position in which the empty list could differ. -/
theorem not_differOnce_nil (args' : List Fingerprint) : ¬ DifferOnce [] args' := by
  rintro ⟨hlength, i, hne, -⟩
  obtain rfl := List.length_eq_zero_iff.1 hlength.symm
  exact hne rfl

/-- Replacing one argument by another one makes a list that differs in this position only. -/
theorem differOnce_set {i : Nat} (hi : i < args.length) (h : args[i] ≠ arg) :
    DifferOnce args (args.set i arg) := by
  refine ⟨List.length_set.symm, i, ?_, fun j hj ↦ ?_⟩
  · simpa [hi] using h
  · exact Decidable.by_contra fun hne ↦ hj (List.getElem?_set_ne (Ne.symm hne)).symm

/-- The position is the first one, or it lies in the rest. -/
theorem DifferOnce.cases_cons (h : DifferOnce (arg :: args) args') :
    (∃ arg', arg ≠ arg' ∧ args' = arg' :: args) ∨
      ∃ rest', args' = arg :: rest' ∧ DifferOnce args rest' := by
  obtain ⟨hlength, i, hne, hunique⟩ := h
  obtain ⟨arg', rest', rfl⟩ := List.exists_cons_of_length_eq_add_one hlength.symm
  have hsame (j : Nat) (hj : j ≠ i) : (arg :: args)[j]? = (arg' :: rest')[j]? :=
    Decidable.by_contra fun hne' ↦ hj (hunique j hne')
  cases i with
  | zero =>
    refine .inl ⟨arg', by simpa using hne, ?_⟩
    have hrest : rest' = args :=
      List.ext_getElem? fun j ↦ by simpa using (hsame (j + 1) (Nat.succ_ne_zero j)).symm
    rw [hrest]
  | succ i =>
    have hfirst : arg = arg' := by simpa using hsame 0 (Nat.succ_ne_zero i).symm
    subst hfirst
    refine .inr ⟨rest', rfl, Nat.succ.inj hlength, i, by simpa using hne, fun j hj ↦ ?_⟩
    exact Nat.succ.inj (hunique (j + 1) (by simpa using hj))

/-- A single argument is never forgotten: what comes before leads to the same hash, and what comes
after keeps different hashes apart. -/
theorem foldFrom_ne (h : DifferOnce args args') :
    foldFrom position seed args ≠ foldFrom position seed args' := by
  induction args generalizing position seed args' with
  | nil => exact absurd h (not_differOnce_nil args')
  | cons arg args ih =>
    rcases h.cases_cons with ⟨arg', hne, rfl⟩ | ⟨rest', rfl, hrest⟩
    · rw [foldFrom_cons, foldFrom_cons, Ne, foldFrom_inj_left, foldStep_inj_right]
      exact hne
    · rw [foldFrom_cons, foldFrom_cons]
      exact ih hrest

/-- A whole fold starts at the first position. -/
theorem fold_ne (h : DifferOnce args args') : fold seed args ≠ fold seed args' := foldFrom_ne h

theorem fold_inj_left : fold seed args = fold seed' args ↔ seed = seed' := foldFrom_inj_left

theorem mk_fold_inj_left : (⟨fold seed args⟩ : Fingerprint) = ⟨fold seed' args⟩ ↔ seed = seed' := by
  rw [mk.injEq, fold_inj_left]

/-- Argument lists that differ in exactly one position lead to different hashes, and so do different
hashes to start with. So instances of a template, functions and constructors have different identities
if they differ in exactly one type, or in the identity of the template, the hash of the name or the
identity of the owner alone. -/
theorem fold_separates :
    (∀ seed args args', DifferOnce args args' → fold seed args ≠ fold seed args') ∧
    (∀ args, Function.Injective fun seed ↦ fold seed args) ∧
    (∀ template args args', DifferOnce args args' →
      ofInstance template args ≠ ofInstance template args') ∧
    (∀ template template' args,
      ofInstance template args = ofInstance template' args ↔ template = template') ∧
    (∀ name params params', DifferOnce params params' →
      ofFunction name params ≠ ofFunction name params') ∧
    (∀ name name' params, ofFunction name params = ofFunction name' params ↔
      XxHash64.ofString name = XxHash64.ofString name') ∧
    (∀ owner params params', DifferOnce params params' →
      ofConstructor owner params ≠ ofConstructor owner params') ∧
    (∀ owner owner' params,
      ofConstructor owner params = ofConstructor owner' params ↔ owner = owner') := by
  have hne {seed : UInt64} {args args' : List Fingerprint} (h : DifferOnce args args') :
      (⟨fold seed args⟩ : Fingerprint) ≠ ⟨fold seed args'⟩ :=
    fun heq ↦ fold_ne h (congrArg word heq)
  refine ⟨fun _ _ _ ↦ fold_ne, fun _ _ _ ↦ fold_inj_left.1, fun _ _ _ ↦ hne, fun _ _ _ ↦ ?_,
    fun _ _ _ ↦ hne, fun _ _ _ ↦ ?_, fun _ _ _ ↦ hne, fun _ _ _ ↦ ?_⟩
  · exact mk_fold_inj_left.trans word_inj
  · exact mk_fold_inj_left.trans (UInt64.xor_right_inj _)
  · exact mk_fold_inj_left.trans ((UInt64.xor_right_inj _).trans word_inj)

/-- The tenth argument counts as well, though only eight markers are tabulated. -/
theorem fold_separates_tenth :
    let args := List.replicate 10 (ofTypeName "int")
    let args' := args.set 9 (ofTypeName "double")
    DifferOnce args args' ∧
      ofInstance (ofTypeName "Tuple") args ≠ ofInstance (ofTypeName "Tuple") args' := by
  intro args args'
  have hdiffer : DifferOnce args args' := differOnce_set (by decide) (by decide +kernel)
  exact ⟨hdiffer, fold_separates.2.2.1 _ _ _ hdiffer⟩

end Fingerprint

end StackLowering
