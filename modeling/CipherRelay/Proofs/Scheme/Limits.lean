import CipherRelay.Proofs.Scheme.Plaintexts
import CipherRelay.Threshold.Expected
/-!
The limits of the arithmetic. A context that has come over a wire need not be valid: its modulus can
be zero, or too large for sums and signed words, and its ring can have more slots than a vector has
room for. On vectors that pass the check, whatever the context is, every vector operation answers a
vector that passes the check, or it crashes and the modulus is to blame. The ring never is, since a
vector that passes shows that there is room.
-/
namespace CipherRelay.Scheme

/-- Whether the modulus of a context is to blame for a crash. -/
def Context.ModulusAccounts (cc : Context) : Crash → Prop
  | .emptyRange | .zeroModulus => cc.plaintextModulus = 0
  | .overflow => 2 ^ 63 ≤ cc.plaintextModulus.toNat
  | .capacity => False

/-- Whether a context is to blame for a crash: its modulus is, or it has more slots than a vector
can have entries. -/
def Context.Accounts (cc : Context) : Crash → Prop
  | .capacity => 2 ^ 60 ≤ cc.ringDimension.toNat
  | crash => cc.ModulusAccounts crash

namespace Context

variable {cc : Context} {α β : Type}

/-- There is room for as many residues as eight bytes each can have in a signed word. -/
theorem hasRoom_iff : cc.HasRoom ↔ cc.ringDimension.toNat < 2 ^ 60 := by
  unfold HasRoom Word.capacity
  omega

/-- Where the modulus is to blame, so is the context. -/
theorem ModulusAccounts.accounts {crash : Crash} (h : cc.ModulusAccounts crash) :
    cc.Accounts crash := by
  cases crash with
  | emptyRange | zeroModulus | overflow => exact h
  | capacity => exact h.elim

/-- Whether an arithmetic operation comes to what `P` says, or crashes for fault of the modulus. -/
def Computes (cc : Context) (operation : Except Crash α) (P : α → Prop) : Prop :=
  match operation with
  | .ok value => P value
  | .error crash => cc.ModulusAccounts crash

namespace Computes

variable {P : α → Prop} {Q : β → Prop} {operation : Except Crash α}

theorem bind {f : α → Except Crash β} (h : cc.Computes operation P)
    (hThen : ∀ value, P value → cc.Computes (f value) Q) : cc.Computes (operation >>= f) Q := by
  cases operation with
  | ok value => exact hThen value h
  | error crash => exact h

theorem mono {P' : α → Prop} (h : cc.Computes operation P) (hWeaker : ∀ value, P value → P' value) :
    cc.Computes operation P' := by
  cases operation with
  | ok value => exact hWeaker value h
  | error crash => exact h

/-- Item by item. -/
theorem mapM {f : α → Except Crash β} {list : List α}
    (h : ∀ item ∈ list, cc.Computes (f item) Q) :
    cc.Computes (list.mapM f) fun results =>
      results.length = list.length ∧ ∀ result ∈ results, Q result := by
  induction list with
  | nil => exact ⟨rfl, by simp⟩
  | cons first rest ih =>
      rw [List.mapM_cons]
      refine (h first List.mem_cons_self).bind fun result hFirst => ?_
      refine (ih fun item hMem => h item (List.mem_cons_of_mem _ hMem)).bind fun results hRest => ?_
      exact ⟨congrArg (· + 1) hRest.1, List.forall_mem_cons.mpr ⟨hFirst, hRest.2⟩⟩

end Computes

section Words

/-- A remainder by the modulus is below it. -/
theorem computes_mod (x : UInt64) :
    cc.Computes (Word.mod x cc.plaintextModulus) (· < cc.plaintextModulus) := by
  unfold Word.mod
  split
  case isTrue hZero => exact hZero
  case isFalse hSome => exact UInt64.mod_lt _ (UInt64.pos_iff_ne_zero.mpr hSome)

/-- A sum up to twice the modulus fits its word, unless the modulus is too large. -/
theorem computes_sum {x y : UInt64}
    (h : cc.plaintextModulus.toNat < 2 ^ 63 → x.toNat + y.toNat ≤ 2 * cc.plaintextModulus.toNat) :
    cc.Computes (Word.add x y) fun sum => sum.toNat = x.toNat + y.toNat := by
  unfold Word.add
  split
  case isTrue hFits => exact (UInt64.toNat_add x y).trans (Nat.mod_eq_of_lt hFits)
  case isFalse hLarge =>
    by_contra hSmall
    have hModulus : cc.plaintextModulus.toNat < 2 ^ 63 := Nat.not_le.mp hSmall
    have hSum := h hModulus
    simp only [UInt64.size] at hLarge
    omega

/-- A difference that is not negative never overflows. -/
theorem computes_difference {x y : UInt64} (h : y.toNat ≤ x.toNat) :
    cc.Computes (Word.sub x y) fun _ => True := by
  rw [Word.sub, if_pos (UInt64.le_iff_toNat_le.mpr h)]
  trivial

/-- A value between the negative modulus and the least word above it fits a signed word. -/
theorem computes_signed {v : Int}
    (h : cc.plaintextModulus.toNat < 2 ^ 63 → -2 ^ 63 ≤ v ∧ v < 2 ^ 63) :
    cc.Computes (Word.signed v) fun word => word.toInt = v := by
  have hMin : Int64.minValue.toInt = -2 ^ 63 := rfl
  have hMax : Int64.maxValue.toInt = 2 ^ 63 - 1 := rfl
  unfold Word.signed
  split
  case isTrue hFits => exact Int64.toInt_ofInt_of_le (by omega) (by omega)
  case isFalse hOutside =>
    by_contra hSmall
    have hModulus : cc.plaintextModulus.toNat < 2 ^ 63 := Nat.not_le.mp hSmall
    have hInside := h hModulus
    omega

/-- The modulus as a signed word is zero only where it is zero. -/
theorem modulus_eq_zero (h : cc.plaintextModulus.toInt64 = 0) : cc.plaintextModulus = 0 := by
  have hBack := congrArg Int64.toUInt64 h
  rwa [UInt64.toUInt64_toInt64] at hBack

/-- The remainder of a signed word is below the modulus where that is small. -/
theorem computes_euclidean (v : Int64) :
    cc.Computes (Word.euclidean v cc.plaintextModulus.toInt64) fun residue =>
      cc.plaintextModulus.toNat < 2 ^ 63 → residue.toUInt64 < cc.plaintextModulus := by
  unfold Word.euclidean
  split
  case isTrue hZero => exact modulus_eq_zero hZero
  case isFalse hSome =>
    split
    case isTrue hMinus =>
      have hModulus : cc.plaintextModulus = (-1 : Int64).toUInt64 := by
        have hBack := congrArg Int64.toUInt64 hMinus.2
        rwa [UInt64.toUInt64_toInt64] at hBack
      have hLargest : (-1 : Int64).toUInt64.toNat = 2 ^ 64 - 1 := rfl
      change 2 ^ 63 ≤ cc.plaintextModulus.toNat
      rw [hModulus, hLargest]
      omega
    case isFalse =>
      intro hModulus
      have hInt := toInt_toInt64 hModulus
      have hPositive : cc.plaintextModulus.toNat ≠ 0 := by
        intro hZero
        apply hSome
        rw [UInt64.toNat_inj.mp (hZero.trans UInt64.toNat_zero.symm)]
        rfl
      have hLeast := Int.emod_nonneg v.toInt (b := cc.plaintextModulus.toNat) (by omega)
      have hBelow := Int.emod_lt_of_pos v.toInt (b := cc.plaintextModulus.toNat) (by omega)
      obtain ⟨r, hr⟩ := Int.eq_ofNat_of_zero_le hLeast
      rw [UInt64.lt_iff_toNat_lt, hInt, hr, Int64.ofInt_eq_ofNat, Int64.toUInt64_ofNat']
      rw [hr] at hBelow
      rw [UInt64.toNat_ofNat_of_lt' (by simp [UInt64.size]; omega)]
      omega

end Words

/-- Whether a vector has an entry for each slot, and the entries are no larger than the modulus
where sums could otherwise overflow. The zeros behind encoded values are no larger than any
modulus. -/
structure Tidy (cc : Context) (v : Residues) : Prop where
  spans : cc.Spans v
  most : cc.plaintextModulus.toNat < 2 ^ 63 → ∀ x ∈ v, x ≤ cc.plaintextModulus

/-- Whether values stand around zero, one for each slot: none is above half the modulus, and none
is at the negative half or below it. -/
def Balanced (cc : Context) (values : List Int64) : Prop :=
  values.length = cc.ringDimension.toNat ∧ ∀ v ∈ values,
    -(cc.plaintextModulus.toNat : Int) < 2 * v.toInt ∧
      2 * v.toInt ≤ (cc.plaintextModulus.toNat : Int)

/-- Whether a vector passes the check. -/
def Passes (cc : Context) (v : Residues) : Prop :=
  cc.check v = .ok ()

theorem Passes.tidy {v : Residues} (h : cc.Passes v) : cc.Tidy v where
  spans := (check_eq_ok_iff.mp h).1
  most _ x hMem := UInt64.le_of_lt ((check_eq_ok_iff.mp h).2 x hMem)

theorem Passes.hasRoom {v : Residues} (h : cc.Passes v) : cc.HasRoom :=
  hasRoom_of_check h

/-- A rotation brings no new entries in. -/
theorem Passes.rotateLeft {v : Residues} (h : cc.Passes v) (rotation : Nat) :
    cc.Passes (v.rotateLeft rotation) := by
  obtain ⟨⟨hRoom, hLength⟩, hBelow⟩ := check_eq_ok_iff.mp h
  have hPerm : (v.rotateLeft rotation).Perm v := by
    simp only [List.rotateLeft]
    split
    · exact .refl v
    · exact List.perm_append_comm.trans (.of_eq (List.take_append_drop _ _))
  exact check_eq_ok_iff.mpr
    ⟨⟨hRoom, hPerm.length_eq.trans hLength⟩, fun x hMem => hBelow x (hPerm.mem_iff.mp hMem)⟩

/-- Slot by slot, on vectors with an entry for each slot. -/
theorem computes_zip {f : UInt64 → UInt64 → Except Crash UInt64} {v w : Residues}
    (hv : cc.Spans v) (hw : cc.Spans w)
    (h : ∀ x ∈ v, ∀ y ∈ w, cc.Computes (f x y) (· < cc.plaintextModulus)) :
    cc.Computes (zip f v w) cc.Passes := by
  refine (Computes.mapM (Q := (· < cc.plaintextModulus)) fun entry hMem => ?_).mono ?_
  · obtain ⟨hLeft, hRight⟩ := List.of_mem_zip hMem
    exact h _ hLeft _ hRight
  · rintro results ⟨hLength, hBelow⟩
    rw [List.length_zip, hv.2, hw.2, Nat.min_self] at hLength
    exact check_eq_ok_iff.mpr ⟨⟨hv.1, hLength⟩, hBelow⟩

variable {v w : Residues}

/-- A sum of tidy vectors passes the check. -/
theorem computes_add (hv : cc.Tidy v) (hw : cc.Tidy w) : cc.Computes (cc.add v w) cc.Passes := by
  refine computes_zip hv.spans hw.spans fun x hx y hy => ?_
  refine (computes_sum fun hModulus => ?_).bind fun sum _ => computes_mod sum
  have hLeft := UInt64.le_iff_toNat_le.mp (hv.most hModulus x hx)
  have hRight := UInt64.le_iff_toNat_le.mp (hw.most hModulus y hy)
  omega

/-- A difference of vectors that pass the check passes it too. -/
theorem computes_sub (hv : cc.Passes v) (hw : cc.Passes w) :
    cc.Computes (cc.sub v w) cc.Passes := by
  refine computes_zip hv.tidy.spans hw.tidy.spans fun x hx y hy => ?_
  have hLeft := UInt64.lt_iff_toNat_lt.mp ((check_eq_ok_iff.mp hv).2 x hx)
  have hRight := UInt64.lt_iff_toNat_lt.mp ((check_eq_ok_iff.mp hw).2 y hy)
  -- The modulus is added first, so the difference cannot fall below zero.
  refine (computes_sum fun _ => by omega).bind fun sum hSum => ?_
  exact (computes_difference (by omega)).bind fun difference _ => computes_mod difference

/-- So does a product, which is reduced in full width. -/
theorem computes_mul (hv : cc.Passes v) (hw : cc.Passes w) :
    cc.Computes (cc.mul v w) cc.Passes := by
  refine computes_zip hv.tidy.spans hw.tidy.spans fun x _ y _ => ?_
  split
  case isTrue hZero => exact hZero
  case isFalse hSome =>
    have hPositive := UInt64.lt_iff_toNat_lt.mp (UInt64.pos_iff_ne_zero.mpr hSome)
    have hBelow : x.toNat * y.toNat % cc.plaintextModulus.toNat < cc.plaintextModulus.toNat :=
      Nat.mod_lt _ hPositive
    have hWord := cc.plaintextModulus.toNat_lt
    change _ < _
    rw [UInt64.lt_iff_toNat_lt, UInt64.toNat_ofNat_of_lt' (by simp only [UInt64.size]; omega)]
    exact hBelow

theorem computes_neg (hv : cc.Passes v) : cc.Computes (cc.neg v) cc.Passes := by
  refine (Computes.mapM (Q := (· < cc.plaintextModulus)) fun x hx => ?_).mono ?_
  · have hBelow := UInt64.lt_iff_toNat_lt.mp ((check_eq_ok_iff.mp hv).2 x hx)
    exact (computes_difference (by omega)).bind fun difference _ => computes_mod difference
  · rintro results ⟨hLength, hBelow⟩
    exact check_eq_ok_iff.mpr ⟨⟨hv.hasRoom, hLength.trans hv.tidy.spans.2⟩, hBelow⟩

/-- Values around zero are half the modulus at most, as long as it is small. -/
theorem computes_center (hv : cc.Passes v) :
    cc.Computes (cc.center v) fun values =>
      cc.plaintextModulus.toNat < 2 ^ 63 → cc.Balanced values := by
  refine (Computes.mapM (Q := fun value => cc.plaintextModulus.toNat < 2 ^ 63 →
    -(cc.plaintextModulus.toNat : Int) < 2 * value.toInt ∧
      2 * value.toInt ≤ (cc.plaintextModulus.toNat : Int)) fun x hx => ?_).mono ?_
  · have hBelow := UInt64.lt_iff_toNat_lt.mp ((check_eq_ok_iff.mp hv).2 x hx)
    have hHalf : (cc.plaintextModulus / 2).toNat = cc.plaintextModulus.toNat / 2 :=
      UInt64.toNat_div _ _
    split
    case isTrue hUpper =>
      rw [UInt64.lt_iff_toNat_lt, hHalf] at hUpper
      refine (computes_signed fun hModulus => ?_).mono fun value hValue hModulus => ?_
      · rw [toInt_toInt64 hModulus, toInt_toInt64 (by omega)]
        omega
      · rw [toInt_toInt64 hModulus, toInt_toInt64 (by omega)] at hValue
        omega
    case isFalse hLower =>
      rw [UInt64.lt_iff_toNat_lt, hHalf] at hLower
      intro hModulus
      rw [toInt_toInt64 (by omega)]
      omega
  · exact fun values hAll hModulus => ⟨hAll.1.trans hv.tidy.spans.2, fun v hMem =>
      hAll.2 v hMem hModulus⟩

/-- Memory for one word for each slot. -/
theorem computes_reserve (hRoom : cc.HasRoom) :
    cc.Computes (Word.reserve cc.ringDimension.toNat) fun _ => True := by
  rw [Word.reserve_eq_ok hRoom]
  trivial

end Context

end CipherRelay.Scheme

namespace CipherRelay

open Scheme

variable {cc : Context}

/-- No negative value plus a small modulus overflows. -/
theorem Handoff.computes_wrap (values : List Int64) :
    cc.Computes (wrap values cc.plaintextModulus) fun _ => True := by
  refine (Context.Computes.mapM (Q := fun _ => True) fun v _ => ?_).mono fun _ _ => trivial
  split
  case isTrue hNegative =>
    refine (Context.computes_signed fun hModulus => ?_).mono fun _ _ => trivial
    have hLeast := v.minValue_le_toInt
    have hBelow := Int64.lt_iff_toInt_lt.mp hNegative
    have hMin : Int64.minValue.toInt = -2 ^ 63 := rfl
    rw [toInt_toInt64 hModulus]
    simp only [Int64.toInt_zero] at hBelow
    omega
  case isFalse => trivial

namespace Threshold

/-- The representative nearest to zero fits its word as long as the modulus is small. -/
theorem computes_nearest (v : Int) :
    cc.Computes (nearest cc.plaintextModulus.toInt64 v) fun _ => True := by
  unfold nearest
  split
  case isTrue hZero => exact Context.modulus_eq_zero hZero
  case isFalse hSome =>
    have hResidue (hModulus : cc.plaintextModulus.toNat < 2 ^ 63) :
        0 ≤ v % cc.plaintextModulus.toInt64.toInt ∧
          v % cc.plaintextModulus.toInt64.toInt < cc.plaintextModulus.toNat ∧
          cc.plaintextModulus.toInt64.toInt = cc.plaintextModulus.toNat := by
      have hInt := toInt_toInt64 hModulus
      have hPositive : (cc.plaintextModulus.toNat : Int) ≠ 0 := by
        intro hZero
        apply hSome
        rw [← Int64.toInt_inj, hInt, hZero]
        rfl
      rw [hInt]
      exact ⟨Int.emod_nonneg v hPositive, Int.emod_lt_of_pos v (by omega), rfl⟩
    dsimp only
    split
    · refine (Context.computes_signed fun hModulus => ?_).mono fun _ _ => trivial
      have hFits := hResidue hModulus
      omega
    · refine (Context.computes_signed fun hModulus => ?_).mono fun _ _ => trivial
      have hFits := hResidue hModulus
      omega

theorem computes_remainders (hRoom : cc.HasRoom) (values : List Int64) :
    cc.Computes (remainders cc.ringDimension.toNat cc.plaintextModulus.toInt64 values)
      fun _ => True := by
  refine (Context.Computes.mapM fun v _ => Context.computes_euclidean v).bind fun _ _ => ?_
  exact (Context.computes_reserve hRoom).bind fun _ _ => trivial

/-- What an operation should give is computed in a context that has room for its slots. -/
theorem computes_expected (hRoom : cc.HasRoom) (operation : Operation) :
    cc.Computes (expected operation cc.ringDimension.toNat cc.plaintextModulus) fun _ => True := by
  refine (computes_remainders hRoom _).bind fun first _ =>
    (computes_remainders hRoom _).bind fun second _ =>
      (computes_remainders hRoom _).bind fun third _ => ?_
  cases operation with
  | add | mult =>
      exact (Context.Computes.mapM fun _ _ => computes_nearest _).mono fun _ _ => trivial
  | sum => exact (computes_nearest _).bind fun _ _ => trivial

end Threshold

end CipherRelay
