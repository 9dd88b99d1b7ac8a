import TorrentServer.HandleBlock
import TorrentServer.Library.DecimalRounding

namespace TorrentServer.SettlementCredit

open TorrentServer.Records
open TorrentServer.ChainLibrary
open TorrentServer.HandleBlock
open TorrentServer.Library.DecimalRounding

/-- What is known of the decimal helpers: the number an `mpd_t` stands for, and
each operation up to the rounding it may do. A quotient is correct to the
precision of the context. -/
structure DecimalLaws (d : Decimals) where
  value : d.Mpd → ℚ
  digits : ℕ
  forty_le_digits : 40 ≤ digits
  value_decimal : ∀ pieces, value (d.decimal (getRatio pieces) 18) = fractionValue (getRatio pieces)
  value_devideInt64ToMpd : ∀ (amount : ShareType) (precision : UInt64) (places : ℕ),
    0 < precision.toNat → KeptTo places ((amount.toNat : ℚ) / precision.toNat)
      (value (d.devideInt64ToMpd amount precision places))
  value_mpdDiv : ∀ a b, 0 ≤ value a → 0 < value b →
    Rounded digits (value a / value b) (value (d.mpdDiv a b))
  mulMpdToInt64_eq : ∀ (a : d.Mpd) (precision : UInt64) (places : ℕ), 0 ≤ value a →
    d.mulMpdToInt64 a precision places = BitVec.ofNat 128 ⌊value a * precision.toNat⌋₊

theorem fractionValue_getRatio_bounds (pieces : UInt32) :
    96 / 100 ≤ fractionValue (getRatio pieces) ∧ fractionValue (getRatio pieces) ≤ 1 := by
  unfold getRatio
  split_ifs <;> decide +kernel

variable {env : Environment}

/-- `get_ratio_value` finds the total the fee was taken from exactly when nothing
of the amount was cut off at the eighth decimal place. -/
theorem getRatioValue_toNat_eq_iff (laws : DecimalLaws env.decimals) {pieces : UInt32}
    {amount : ShareType} {total : ℕ}
    (hamount : (amount.toNat : ℚ) = total * fractionValue (getRatio pieces)) :
    (getRatioValue env (env.decimals.decimal (getRatio pieces) 18) amount
        1000000000000000000 8).toNat = total ↔
      10 ^ 10 ∣ amount.toNat ∧ total < 2 ^ 128 := by
  obtain ⟨hlow, hhigh⟩ := fractionValue_getRatio_bounds pieces
  have hratio := laws.value_decimal pieces
  have hpos : 0 < fractionValue (getRatio pieces) := lt_of_lt_of_le (by norm_num) hlow
  have hkept := laws.value_devideInt64ToMpd amount 1000000000000000000 8 (by decide)
  have hround := laws.value_mpdDiv _ (env.decimals.decimal (getRatio pieces) 18) hkept.nonneg
    (by rwa [hratio])
  have hnonneg := hround.nonneg (div_nonneg hkept.nonneg (by rw [hratio]; exact hpos.le))
  rw [hratio] at hround
  have hprecision : (((1000000000000000000 : UInt64).toNat : ℕ) : ℚ) = 10 ^ (8 + 10) := by
    rw [show (1000000000000000000 : UInt64).toNat = 10 ^ 18 by decide]
    norm_num
  rw [hprecision] at hkept
  unfold getRatioValue
  simp only [laws.mulMpdToInt64_eq _ _ _ hnonneg, hprecision, BitVec.toNat_ofNat]
  have hdigits : 10 ^ 40 ≤ 10 ^ laws.digits :=
    Nat.pow_le_pow_right (by norm_num) laws.forty_le_digits
  by_cases htotal : total < 2 ^ 128
  · by_cases hdvd : 10 ^ 10 ∣ amount.toNat
    · rw [floor_quotient_of_dvd hpos hamount hkept hround (by omega) hdvd]
      exact iff_of_true (Nat.mod_eq_of_lt htotal) ⟨hdvd, htotal⟩
    · obtain ⟨hne, hle⟩ := floor_quotient_of_not_dvd (2 * 10 ^ 10) hpos hhigh hamount
        hkept hround (by push_cast; linarith) (by omega) hdvd
      simp only [hdvd, false_and, iff_false]
      omega
  · simp only [htotal, and_false, iff_false]
    omega

def creditedPieces (tp : TorrentPayment) (account : String) : ℕ :=
  ((tp.payPieces.lookup account).getD 0).toNat

theorem lookup_creditPieces (payPieces : Finmap fun _ : String => UInt32)
    (account : String) (piece : UInt64) :
    (creditPieces payPieces account piece).lookup account =
      some ((payPieces.lookup account).getD 0 + piece.toUInt32) := by
  unfold creditPieces
  rw [Finmap.lookup_insert]
  split
  · rfl
  · rename_i hnew
    rw [Finmap.lookup_eq_none.mpr hnew]
    by_cases hname : account = cStr account
    · rw [← hname, Finmap.lookup_insert]
      rfl
    · rw [Finmap.lookup_insert_of_ne _ hname, Finmap.lookup_eq_none.mpr hnew]

def creditedPayment (tp : TorrentPayment) (account : String) (pieces : ℕ) : TorrentPayment :=
  { tp with payPieces := creditPieces tp.payPieces account (UInt64.ofNat pieces) }

/-- The entry is accepted with the pieces it was paid for, and the account has
that many more afterwards. -/
structure Credited (env : Environment) (op : SettlementOperation) (tp : TorrentPayment)
    (account : String) (i : ℕ) (amount : ShareType) (pieces : ℕ) : Prop where
  total : (getRatioValue env (env.decimals.decimal (getRatio tp.pieces) 18) amount
    1000000000000000000 8).toNat = pieces * (pieceUnit tp).toNat
  accepted : settlementEntry env (env.decimals.decimal (getRatio tp.pieces) 18) op tp
    (account, i) = .ok (creditedPayment tp account pieces)
  credited : creditedPieces (creditedPayment tp account pieces) account =
    creditedPieces tp account + pieces

variable {op : SettlementOperation} {tp : TorrentPayment} {account : String} {i pieces : ℕ}
  {amount : ShareType}

theorem creditedPieces_creditedPayment :
    creditedPieces (creditedPayment tp account pieces) account =
      (creditedPieces tp account + pieces) % 2 ^ 32 := by
  simp only [creditedPieces, creditedPayment, lookup_creditPieces, Option.getD_some]
  simp [UInt32.toNat_add]

theorem settlementEntry_of_total (hunit : pieceUnit tp ≠ 0)
    (hbusiness : op.businessType[i]? = some env.torrentReceiptTransfer)
    (hamount : op.amount[i]? = some amount) (hpieces : pieces < 2 ^ 64)
    {ratio : env.decimals.Mpd}
    (htotal : (getRatioValue env ratio amount 1000000000000000000 8).toNat =
      pieces * (pieceUnit tp).toNat) :
    settlementEntry env ratio op tp (account, i) =
      .ok (creditedPayment tp account pieces) := by
  have hpos : 0 < (pieceUnit tp).toNat := by
    rw [Nat.pos_iff_ne_zero]
    exact fun hzero => hunit (BitVec.eq_of_toNat_eq hzero)
  have hpiece : UInt64.ofBitVec
      ((getRatioValue env ratio amount 1000000000000000000 8 / pieceUnit tp).setWidth 64) =
        UInt64.ofNat pieces := by
    apply UInt64.toNat_inj.mp
    simp [htotal, Nat.mul_div_cancel _ hpos]
  simp only [settlementEntry, hbusiness, hamount, hunit, hpiece, ne_eq, not_true_eq_false,
    if_false]
  rw [if_neg]
  · rfl
  · rw [not_not]
    apply BitVec.eq_of_toNat_eq
    have hlt := (getRatioValue env ratio amount 1000000000000000000 8).isLt
    rw [htotal] at hlt ⊢
    rw [BitVec.toNat_mul, BitVec.toNat_setWidth, UInt64.toNat_toBitVec, hpiece,
      UInt64.toNat_ofNat_of_lt' hpieces, Nat.mod_eq_of_lt (by omega : pieces < 2 ^ 128),
      Nat.mod_eq_of_lt hlt]

/-- An amount of `n` pieces less the fee is credited as `n` pieces exactly when it
is a multiple of ten to the tenth. -/
theorem settlement_credited_iff (laws : DecimalLaws env.decimals) (hunit : pieceUnit tp ≠ 0)
    (hbusiness : op.businessType[i]? = some env.torrentReceiptTransfer)
    (hamount : op.amount[i]? = some amount)
    (hfee : (amount.toNat : ℚ) =
      (pieces * (pieceUnit tp).toNat : ℕ) * fractionValue (getRatio tp.pieces)) :
    Credited env op tp account i amount pieces ↔
      10 ^ 10 ∣ amount.toNat ∧ pieces * (pieceUnit tp).toNat < 2 ^ 128 ∧
        creditedPieces tp account + pieces < 2 ^ 32 := by
  have htotal := getRatioValue_toNat_eq_iff laws hfee
  constructor
  · intro h
    obtain ⟨hdvd, hlt⟩ := htotal.mp h.total
    have hcredited := h.credited
    rw [creditedPieces_creditedPayment] at hcredited
    exact ⟨hdvd, hlt, hcredited ▸ Nat.mod_lt _ (by decide)⟩
  · rintro ⟨hdvd, hlt, hcount⟩
    have hexact := htotal.mpr ⟨hdvd, hlt⟩
    have hpieces : pieces < 2 ^ 64 := by omega
    refine ⟨hexact, settlementEntry_of_total hunit hbusiness hamount hpieces hexact, ?_⟩
    rw [creditedPieces_creditedPayment, Nat.mod_eq_of_lt hcount]

section Sample

/-- The helpers on rational numbers; only the first division cuts anything off. -/
def Decimals.rational : Decimals where
  Mpd := ℚ
  decimal text _ := fractionValue text
  devideInt64ToMpd amount precision places :=
    (amount.toNat * 10 ^ places / precision.toNat : ℕ) / 10 ^ places
  mpdDiv a b := a / b
  mulMpdToInt64 a precision _ := BitVec.ofNat 128 ⌊a * precision.toNat⌋₊
  mpdToSci a places := Decimals.scaled.mpdToSci (⌊a * 10 ^ places⌋₊, places) places

theorem keptTo_natDiv (amount precision places : ℕ) (hprecision : 0 < precision) :
    KeptTo places ((amount : ℚ) / precision)
      ((amount * 10 ^ places / precision : ℕ) / 10 ^ places) := by
  refine ⟨_, rfl, ?_⟩
  set k := amount * 10 ^ places / precision
  have hp : (0 : ℚ) < precision := by exact_mod_cast hprecision
  have hpow : (0 : ℚ) < 10 ^ places := by positivity
  have hlow : (k : ℚ) / 10 ^ places ≤ amount / precision := by
    rw [div_le_div_iff₀ hpow hp]
    exact_mod_cast Nat.div_mul_le_self _ _
  have hhigh : (amount : ℚ) / precision < k / 10 ^ places + 1 / 10 ^ places := by
    rw [← add_div, div_lt_div_iff₀ hp hpow]
    exact_mod_cast Nat.lt_mul_of_div_lt (Nat.lt_succ_self _) hprecision
  rw [abs_lt]
  constructor <;> linarith

def rationalLaws : DecimalLaws Decimals.rational where
  value := id
  digits := 40
  forty_le_digits := le_rfl
  value_decimal _ := rfl
  value_devideInt64ToMpd _ _ _ := keptTo_natDiv _ _ _
  value_mpdDiv _ _ _ _ := ⟨fun _ _ h => h, fun _ _ h => h⟩
  mulMpdToInt64_eq _ _ _ _ := rfl

def rationalAsset : Environment :=
  { Environment.oneAsset with decimals := Decimals.rational }

def paymentOfUnit (unit : ShareType) : TorrentPayment :=
  { pieces := 10, transferOnePieceAmount := unit.text, receiverAuthorOnePieceAmount := "0" }

def receiptOf (amount : ShareType) : SettlementOperation :=
  { account := ["seeder"], amount := [amount]
    businessType := [Environment.oneAsset.torrentReceiptTransfer] }

theorem pieceUnit_paymentOfUnit (unit : ShareType) : pieceUnit (paymentOfUnit unit) = unit := by
  have hzero : ShareType.ofText "0" = 0 := rfl
  simp [pieceUnit, paymentOfUnit, hzero]

theorem three_pieces_credited :
    Credited rationalAsset (receiptOf 5970000000000) (paymentOfUnit 2000000000000) "seeder" 0
      5970000000000 3 := by
  refine (settlement_credited_iff rationalLaws ?_ rfl rfl ?_).mpr ?_
  · rw [pieceUnit_paymentOfUnit]
    decide
  · rw [pieceUnit_paymentOfUnit]
    decide +kernel
  · rw [pieceUnit_paymentOfUnit]
    decide

/-- Ten pieces of 100, paid less the fee of 0.5 per cent. -/
theorem ten_pieces_not_credited :
    ¬ ∀ (env : Environment) (_ : DecimalLaws env.decimals) (op : SettlementOperation)
        (tp : TorrentPayment) (account : String) (i : ℕ) (amount : ShareType) (pieces : ℕ),
      pieceUnit tp ≠ 0 → op.businessType[i]? = some env.torrentReceiptTransfer →
      op.amount[i]? = some amount →
      (amount.toNat : ℚ) =
        (pieces * (pieceUnit tp).toNat : ℕ) * fractionValue (getRatio tp.pieces) →
        Credited env op tp account i amount pieces := by
  intro h
  have hfee : (((995 : ShareType).toNat : ℕ) : ℚ) =
      (10 * (pieceUnit (paymentOfUnit 100)).toNat : ℕ) *
        fractionValue (getRatio (paymentOfUnit 100).pieces) := by
    rw [pieceUnit_paymentOfUnit]
    decide +kernel
  have hunit : pieceUnit (paymentOfUnit 100) ≠ 0 := by
    rw [pieceUnit_paymentOfUnit]
    decide
  have hcredited :=
    h rationalAsset rationalLaws (receiptOf 995) (paymentOfUnit 100) "seeder" 0 995 10 hunit rfl rfl
      hfee
  have hdvd := ((getRatioValue_toNat_eq_iff rationalLaws hfee).mp hcredited.total).1
  exact absurd hdvd (by decide)

end Sample

end TorrentServer.SettlementCredit
