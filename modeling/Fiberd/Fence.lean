import Mathlib.Algebra.Group.Nat.Defs
import Mathlib.Data.List.Basic
import Mathlib.Order.Basic

/-!
Fences, from `pkg/core/fence.go`.  A fence names one incarnation of a fiber, and
its text is the fiber's ID.  The text determines the fence, so distinct fences
name distinct fibers.
-/

namespace Fiberd

structure Fence where
  grantUID : String
  epoch : Nat
  seq : Nat
  deriving DecidableEq, Repr

/-- `Fence.String`: `grant/epoch/seq`. -/
def Fence.string (fence : Fence) : String :=
  fence.grantUID ++ "/" ++ fence.epoch.repr ++ "/" ++ fence.seq.repr

def Fence.newer (fence other : Fence) : Bool :=
  if fence.grantUID ≠ other.grantUID then false
  else if fence.epoch ≠ other.epoch then decide (fence.epoch > other.epoch)
  else decide (fence.seq > other.seq)

theorem Fence.newer_iff (fence other : Fence) :
    fence.newer other = true ↔ fence.grantUID = other.grantUID ∧
      (other.epoch < fence.epoch ∨ fence.epoch = other.epoch ∧ other.seq < fence.seq) := by
  unfold Fence.newer
  by_cases grant : fence.grantUID = other.grantUID
  · by_cases epoch : fence.epoch = other.epoch
    · simp [grant, epoch]
    · simp only [grant, epoch, ne_eq, not_true_eq_false, not_false_eq_true, if_true, if_false,
        decide_eq_true_eq, true_and, false_and, or_false, gt_iff_lt]
  · simp [grant]

theorem Fence.newer_ne {fence other : Fence} (newer : fence.newer other = true) :
    fence ≠ other := by
  rintro rfl
  have order := (Fence.newer_iff fence fence).mp newer
  omega

theorem append_separator_inj {front other back rest : List Char}
    (backPlain : '/' ∉ back) (restPlain : '/' ∉ rest)
    (same : front ++ '/' :: back = other ++ '/' :: rest) : front = other ∧ back = rest := by
  induction front generalizing other with
  | nil =>
    cases other with
    | nil => simpa using same
    | cons letter letters =>
      simp only [List.nil_append, List.cons_append, List.cons.injEq] at same
      exact (backPlain (by simp [same.2])).elim
  | cons letter letters ih =>
    cases other with
    | nil =>
      simp only [List.nil_append, List.cons_append, List.cons.injEq] at same
      exact (restPlain (by simp [← same.2])).elim
    | cons second seconds =>
      simp only [List.cons_append, List.cons.injEq] at same
      obtain ⟨fronts, backs⟩ := ih same.2
      exact ⟨by rw [same.1, fronts], backs⟩

theorem slash_not_mem_repr (number : Nat) : '/' ∉ number.repr.toList := by
  rw [Nat.toList_repr]
  intro mem
  have digit := Nat.isDigit_of_mem_toDigits (by decide) (by decide) mem
  simp at digit

theorem repr_inj {first second : Nat} (same : first.repr = second.repr) : first = second := by
  have digits : Nat.toDigits 10 first = Nat.toDigits 10 second := by
    rw [← Nat.toList_repr, ← Nat.toList_repr, same]
  rw [← Nat.ofDigitChars_ten_toDigits (n := first), digits, Nat.ofDigitChars_ten_toDigits]

theorem Fence.string_toList (fence : Fence) :
    fence.string.toList = (fence.grantUID.toList ++ '/' :: fence.epoch.repr.toList) ++
      '/' :: fence.seq.repr.toList := by
  simp [Fence.string, String.toList_append]

theorem Fence.string_inj {fence other : Fence} (same : fence.string = other.string) :
    fence = other := by
  have letters := congrArg String.toList same
  rw [Fence.string_toList, Fence.string_toList] at letters
  obtain ⟨fronts, seqs⟩ :=
    append_separator_inj (slash_not_mem_repr _) (slash_not_mem_repr _) letters
  obtain ⟨grants, epochs⟩ :=
    append_separator_inj (slash_not_mem_repr _) (slash_not_mem_repr _) fronts
  have grant : fence.grantUID = other.grantUID := String.toList_inj.mp grants
  have epoch : fence.epoch = other.epoch := repr_inj (String.toList_inj.mp epochs)
  have seq : fence.seq = other.seq := repr_inj (String.toList_inj.mp seqs)
  cases fence
  cases other
  simp_all

theorem Fence.string_ne_empty (fence : Fence) : fence.string ≠ "" := by
  intro empty
  have letters := congrArg String.toList empty
  rw [Fence.string_toList] at letters
  simp at letters

def cutLast : List Char → Option (List Char × List Char)
  | [] => none
  | letter :: letters =>
    match cutLast letters with
    | some (front, back) => some (letter :: front, back)
    | none => if letter = '/' then some ([], letters) else none

/-- `strconv.ParseUint(s, 10, 64)`. -/
def parseUint (letters : List Char) : Option Nat :=
  if letters ≠ [] ∧ letters.all Char.isDigit = true ∧ Nat.ofDigitChars 10 letters 0 < 2 ^ 64 then
    some (Nat.ofDigitChars 10 letters 0)
  else none

def parseFence (text : String) : Option Fence :=
  (cutLast text.toList).bind fun last =>
    (cutLast last.1).bind fun parts =>
      (parseUint parts.2).bind fun epoch =>
        (parseUint last.2).bind fun seq =>
          if parts.1 = [] then none else some ⟨String.ofList parts.1, epoch, seq⟩

theorem cutLast_plain {letters : List Char} (plain : '/' ∉ letters) : cutLast letters = none := by
  induction letters with
  | nil => rfl
  | cons letter letters ih =>
    simp only [List.mem_cons, not_or] at plain
    simp [cutLast, ih plain.2, Ne.symm plain.1]

theorem cutLast_append {back : List Char} (front : List Char) (plain : '/' ∉ back) :
    cutLast (front ++ '/' :: back) = some (front, back) := by
  induction front with
  | nil => simp [cutLast, cutLast_plain plain]
  | cons letter front ih => simp [cutLast, ih]

theorem parseUint_repr {number : Nat} (bound : number < 2 ^ 64) :
    parseUint number.repr.toList = some number := by
  rw [Nat.toList_repr, parseUint, Nat.ofDigitChars_ten_toDigits, if_pos]
  refine ⟨Nat.toDigits_ne_nil, ?_, bound⟩
  rw [List.all_eq_true]
  intro letter mem
  exact Nat.isDigit_of_mem_toDigits (by decide) (by decide) mem

theorem parseFence_string {fence : Fence} (named : fence.grantUID ≠ "")
    (epoch : fence.epoch < 2 ^ 64) (seq : fence.seq < 2 ^ 64) :
    parseFence fence.string = some fence := by
  have letters : fence.grantUID.toList ≠ [] := by
    simpa [String.toList_eq_nil_iff] using named
  rw [parseFence, Fence.string_toList, cutLast_append _ (slash_not_mem_repr _), Option.bind_some,
    cutLast_append _ (slash_not_mem_repr _), Option.bind_some, parseUint_repr epoch,
    Option.bind_some, parseUint_repr seq, Option.bind_some, if_neg letters, String.ofList_toList]

end Fiberd
