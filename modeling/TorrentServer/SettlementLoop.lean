import Mathlib.Data.Nat.Find
import TorrentServer.SettlementCredit
import TorrentServer.TransactionPlans

namespace TorrentServer.SettlementLoop

open TorrentServer.Records
open TorrentServer.ChainLibrary
open TorrentServer.TorrentDatabase
open TorrentServer.HandleBlock
open TorrentServer.TransactionPlans
open TorrentServer.SettlementCredit

section Accumulation

abbrev Pieces := Finmap fun _ : String => UInt32

def creditAll (payPieces : Pieces) (grants : List (String × ℕ)) : Pieces :=
  grants.foldl (fun m grant => creditPieces m grant.1 (UInt64.ofNat grant.2)) payPieces

def accounts (grants : List (String × ℕ)) : List String :=
  grants.map Prod.fst

def granted (grants : List (String × ℕ)) (account : String) : ℕ :=
  ((grants.filter fun grant => grant.1 = account).map Prod.snd).sum

def piecesAt (payPieces : Pieces) (account : String) : UInt32 :=
  (payPieces.lookup account).getD 0

structure Accumulated (before after : Pieces) (grants : List (String × ℕ)) : Prop where
  pieces : ∀ account, piecesAt after account =
    piecesAt before account + UInt32.ofNat (granted grants account)
  keys : ∀ account, account ∈ after ↔ account ∈ before ∨ account ∈ accounts grants

/-- Grant number `i` is the first one of an account whose name ends early as a C
string: it sets the pieces under the shorter name to zero. -/
def Cuts (payPieces : Pieces) (grants : List (String × ℕ)) (i : ℕ) (name : String) : Prop :=
  ∃ account n, grants[i]? = some (account, n) ∧ cStr account = name ∧ account ≠ name ∧
    account ∉ payPieces ∧ account ∉ accounts (grants.take i)

/-- Where a name is set to zero for the last time, nothing has been collected under it,
and it is a key by itself. -/
def CutsHarmless (payPieces : Pieces) (grants : List (String × ℕ)) : Prop :=
  ∀ i name, Cuts payPieces grants i name → (∀ j, i < j → ¬ Cuts payPieces grants j name) →
    piecesAt payPieces name + UInt32.ofNat (granted (grants.take i) name) = 0 ∧
      (name ∈ payPieces ∨ name ∈ accounts grants)

variable {m : Pieces} {grants : List (String × ℕ)} {account name : String} {n i : ℕ}

@[simp] theorem creditAll_cons (m : Pieces) (grant : String × ℕ) (grants : List (String × ℕ)) :
    creditAll m (grant :: grants) =
      creditAll (creditPieces m grant.1 (UInt64.ofNat grant.2)) grants := rfl

theorem creditAll_append (m : Pieces) (grants more : List (String × ℕ)) :
    creditAll m (grants ++ more) = creditAll (creditAll m grants) more :=
  List.foldl_append

@[simp] theorem granted_cons (grant : String × ℕ) (grants : List (String × ℕ)) :
    granted (grant :: grants) account =
      (if grant.1 = account then grant.2 else 0) + granted grants account := by
  by_cases hname : grant.1 = account <;> simp [granted, hname]

theorem granted_append (grants more : List (String × ℕ)) :
    granted (grants ++ more) account = granted grants account + granted more account := by
  simp [granted]

theorem cStr_cStr (text : String) : cStr (cStr text) = cStr text :=
  cStr_eq_self (zero_notMem_cStr text)

theorem piecesAt_creditPieces_self :
    piecesAt (creditPieces m account (UInt64.ofNat n)) account =
      piecesAt m account + UInt32.ofNat n := by
  simp [piecesAt, lookup_creditPieces]

theorem lookup_creditPieces_of_ne (hne : name ≠ account) (piece : UInt64) :
    (creditPieces m account piece).lookup name =
      if account ∉ m ∧ cStr account = name then some 0 else m.lookup name := by
  unfold creditPieces
  rw [Finmap.lookup_insert_of_ne _ hne]
  by_cases hmem : account ∈ m
  · simp [hmem]
  · by_cases hcut : cStr account = name
    · simp [hmem, hcut]
    · simp [hmem, hcut, Finmap.lookup_insert_of_ne m (Ne.symm hcut)]

theorem mem_creditPieces_self (piece : UInt64) : account ∈ creditPieces m account piece :=
  Finmap.mem_insert.mpr (.inl rfl)

theorem mem_creditPieces_of_mem (hmem : name ∈ m) (piece : UInt64) :
    name ∈ creditPieces m account piece := by
  by_cases hname : name = account
  · rw [hname]
    exact mem_creditPieces_self piece
  · rw [Finmap.mem_iff, lookup_creditPieces_of_ne hname]
    split
    · exact ⟨0, rfl⟩
    · exact Finmap.mem_iff.mp hmem

theorem mem_creditAll (h : name ∈ m ∨ name ∈ accounts grants) : name ∈ creditAll m grants := by
  induction grants generalizing m with
  | nil =>
      rcases h with hmem | hmem
      · exact hmem
      · cases hmem
  | cons grant grants ih =>
      rw [creditAll_cons]
      apply ih
      rcases h with hmem | hmem
      · exact .inl (mem_creditPieces_of_mem hmem _)
      · rcases List.mem_cons.mp hmem with rfl | hlater
        · exact .inl (mem_creditPieces_self _)
        · exact .inr hlater

theorem Cuts.of_append {before after : List (String × ℕ)}
    (h : Cuts (creditAll m before) after i name) :
    Cuts m (before ++ after) (before.length + i) name := by
  obtain ⟨account, n, hget, hcut, hne, hnew, hfirst⟩ := h
  refine ⟨account, n, ?_, hcut, hne, fun hmem => hnew (mem_creditAll (.inl hmem)), ?_⟩
  · rw [List.getElem?_append_right (Nat.le_add_right _ _), Nat.add_sub_cancel_left]
    exact hget
  · rw [List.take_append, List.take_of_length_le (Nat.le_add_right _ _), Nat.add_sub_cancel_left]
    intro hmem
    rw [accounts, List.map_append, List.mem_append] at hmem
    rcases hmem with hbefore | hafter
    · exact hnew (mem_creditAll (.inr hbefore))
    · exact hfirst hafter

/-- A name that is never cut collects all that is granted to it. -/
theorem creditAll_of_not_cut (h : ∀ i, ¬ Cuts m grants i name) :
    piecesAt (creditAll m grants) name =
        piecesAt m name + UInt32.ofNat (granted grants name) ∧
      (name ∈ creditAll m grants ↔ name ∈ m ∨ name ∈ accounts grants) := by
  induction grants generalizing m with
  | nil => simp [creditAll, granted, accounts]
  | cons grant grants ih =>
      obtain ⟨account, n⟩ := grant
      have hlater : ∀ i, ¬ Cuts (creditPieces m account (UInt64.ofNat n)) grants i name :=
        fun i hcut => h _ (@Cuts.of_append m name i [(account, n)] grants hcut)
      obtain ⟨hpieces, hkeys⟩ := ih hlater
      rw [creditAll_cons, hpieces, hkeys, granted_cons]
      by_cases hname : name = account
      · subst hname
        rw [piecesAt_creditPieces_self, if_pos rfl, UInt32.ofNat_add, UInt32.add_assoc]
        exact ⟨rfl, iff_of_true (.inl (mem_creditPieces_self _)) (.inr List.mem_cons_self)⟩
      · have hhead : ¬ (account ∉ m ∧ cStr account = name) := fun ⟨hnew, hcut⟩ =>
          h 0 ⟨account, n, rfl, hcut, Ne.symm hname, hnew, List.not_mem_nil⟩
        have hlookup := @lookup_creditPieces_of_ne m account name hname (UInt64.ofNat n)
        rw [if_neg hhead] at hlookup
        have hmem : name ∈ creditPieces m account (UInt64.ofNat n) ↔ name ∈ m := by
          rw [Finmap.mem_iff, Finmap.mem_iff, hlookup]
        simp only [piecesAt, hlookup, hmem, if_neg (Ne.symm hname), Nat.zero_add]
        simp [accounts, hname]

/-- No cut makes a key of a name that is no C string. -/
theorem notMem_creditAll {account : String} (hwhole : cStr account ≠ account) (hnew : account ∉ m)
    (hfirst : account ∉ accounts grants) : account ∉ creditAll m grants := by
  have huncut : ∀ i, ¬ Cuts m grants i account := by
    rintro i ⟨other, -, -, rfl, -⟩
    exact hwhole (cStr_cStr other)
  rw [(creditAll_of_not_cut huncut).2]
  rintro (hold | hgranted)
  · exact hnew hold
  · exact hfirst hgranted

/-- A name keeps only what is granted after it was cut for the last time. -/
theorem creditAll_of_last_cut (h : Cuts m grants i name)
    (hlast : ∀ j, i < j → ¬ Cuts m grants j name) :
    piecesAt (creditAll m grants) name = UInt32.ofNat (granted (grants.drop (i + 1)) name) ∧
      name ∈ creditAll m grants ∧
      granted grants name =
        granted (grants.take i) name + granted (grants.drop (i + 1)) name := by
  obtain ⟨account, n, hget, hcut, hne, hnew, hfirst⟩ := h
  obtain ⟨hi, hentry⟩ := List.getElem?_eq_some_iff.mp hget
  have hsplit : grants = grants.take i ++ (account, n) :: grants.drop (i + 1) := by
    rw [← hentry, List.cons_getElem_drop_succ, List.take_append_drop]
  have hfresh : account ∉ creditAll m (grants.take i) :=
    notMem_creditAll (fun hwhole => hne (hwhole.symm.trans hcut)) hnew hfirst
  have hzero : (creditPieces (creditAll m (grants.take i)) account (UInt64.ofNat n)).lookup name =
      some 0 := by
    rw [lookup_creditPieces_of_ne (Ne.symm hne), if_pos ⟨hfresh, hcut⟩]
  have hafter : ∀ j, ¬ Cuts (creditPieces (creditAll m (grants.take i)) account (UInt64.ofNat n))
      (grants.drop (i + 1)) j name := by
    intro j hcuts
    have hbefore : creditPieces (creditAll m (grants.take i)) account (UInt64.ofNat n) =
        creditAll m (grants.take i ++ [(account, n)]) := by
      rw [creditAll_append]
      rfl
    rw [hbefore] at hcuts
    have hall := hcuts.of_append
    rw [List.append_assoc, List.singleton_append, ← hsplit] at hall
    refine hlast _ ?_ hall
    simp only [List.length_append, List.length_take, List.length_singleton]
    omega
  obtain ⟨hpieces, hkeys⟩ := creditAll_of_not_cut hafter
  have hall : creditAll m grants =
      creditAll (creditPieces (creditAll m (grants.take i)) account (UInt64.ofNat n))
        (grants.drop (i + 1)) := by
    conv_lhs => rw [hsplit]
    rw [creditAll_append, creditAll_cons]
  rw [hall]
  refine ⟨?_, ?_, ?_⟩
  · rw [hpieces]
    simp [piecesAt, hzero]
  · rw [hkeys]
    exact .inl (Finmap.mem_iff.mpr ⟨0, hzero⟩)
  · conv_lhs => rw [hsplit]
    rw [granted_append, granted_cons, if_neg hne, Nat.zero_add]

theorem exists_last_cut (h : Cuts m grants i name) :
    ∃ last, Cuts m grants last name ∧ ∀ j, last < j → ¬ Cuts m grants j name := by
  classical
  have hbound : ∀ j, Cuts m grants j name → j ≤ grants.length := by
    rintro j ⟨account, n, hget, -⟩
    exact (List.getElem?_eq_some_iff.mp hget).1.le
  let P := fun j => Cuts m grants j name
  refine ⟨Nat.findGreatest P grants.length, ?_, ?_⟩
  · exact @Nat.findGreatest_spec i P _ _ (hbound i h) h
  · intro j hj hcut
    exact Nat.findGreatest_is_greatest hj (hbound j hcut) hcut

theorem accumulated_iff : Accumulated m (creditAll m grants) grants ↔ CutsHarmless m grants := by
  constructor
  · intro h i name hcut hlast
    obtain ⟨hpieces, hmem, hgranted⟩ := creditAll_of_last_cut hcut hlast
    refine ⟨?_, (h.keys name).mp hmem⟩
    have hsum := h.pieces name
    rw [hpieces, hgranted, UInt32.ofNat_add, ← UInt32.add_assoc] at hsum
    exact UInt32.add_eq_right.mp hsum.symm
  · intro h
    suffices hname : ∀ name, piecesAt (creditAll m grants) name =
        piecesAt m name + UInt32.ofNat (granted grants name) ∧
          (name ∈ creditAll m grants ↔ name ∈ m ∨ name ∈ accounts grants) from
      ⟨fun name => (hname name).1, fun name => (hname name).2⟩
    intro name
    by_cases hcut : ∃ i, Cuts m grants i name
    · obtain ⟨i, hcut⟩ := hcut
      obtain ⟨last, hcut, hlast⟩ := exists_last_cut hcut
      obtain ⟨hpieces, hmem, hgranted⟩ := creditAll_of_last_cut hcut hlast
      obtain ⟨hzero, hkey⟩ := h last name hcut hlast
      refine ⟨?_, iff_of_true hmem hkey⟩
      rw [hpieces, hgranted, UInt32.ofNat_add, ← UInt32.add_assoc, hzero, UInt32.zero_add]
    · exact creditAll_of_not_cut (not_exists.mp hcut)

theorem cutsHarmless_of_whole (h : ∀ account ∈ accounts grants, '\x00' ∉ account.toList) :
    CutsHarmless m grants := by
  rintro i name ⟨account, n, hget, hcut, hne, -⟩ -
  have hmem : account ∈ accounts grants := List.mem_map_of_mem (List.mem_of_getElem? hget)
  exact absurd ((cStr_eq_self (h account hmem)).symm.trans hcut) hne

end Accumulation

section Loop

/-- The total the fee was taken from, as `get_ratio_value` finds it. -/
def entryTotal (env : Environment) (tp : TorrentPayment) (amount : ShareType) : ℕ :=
  (getRatioValue env (env.decimals.decimal (getRatio tp.pieces) 18) amount
    1000000000000000000 8).toNat

/-- The entries that count, each with its number of pieces: receipts whose total is a
multiple of the unit. -/
def grantOf (env : Environment) (op : SettlementOperation) (tp : TorrentPayment)
    (entry : String × ℕ) : Option (String × ℕ) :=
  match op.businessType[entry.2]?, op.amount[entry.2]? with
  | some businessType, some amount =>
      if businessType = env.torrentReceiptTransfer ∧
          (pieceUnit tp).toNat ∣ entryTotal env tp amount then
        some (entry.1, entryTotal env tp amount / (pieceUnit tp).toNat)
      else none
  | _, _ => none

def grants (env : Environment) (op : SettlementOperation) (tp : TorrentPayment) :
    List (String × ℕ) :=
  op.account.zipIdx.filterMap (grantOf env op tp)

def QuotientsFit (env : Environment) (op : SettlementOperation) (tp : TorrentPayment) : Prop :=
  ∀ (i : ℕ) (amount : ShareType), op.businessType[i]? = some env.torrentReceiptTransfer →
    op.amount[i]? = some amount →
    entryTotal env tp amount / (pieceUnit tp).toNat < 2 ^ 64

variable {env : Environment} {op : SettlementOperation} {tp : TorrentPayment}

theorem settlementEntry_of_not_dvd {ratio : env.decimals.Mpd} {account : String} {i : ℕ}
    {amount : ShareType} (hunit : pieceUnit tp ≠ 0) (hamount : op.amount[i]? = some amount)
    (hbusiness : op.businessType[i]? = some env.torrentReceiptTransfer)
    (hquotient : (getRatioValue env ratio amount 1000000000000000000 8).toNat /
      (pieceUnit tp).toNat < 2 ^ 64)
    (hdvd : ¬ (pieceUnit tp).toNat ∣
      (getRatioValue env ratio amount 1000000000000000000 8).toNat) :
    settlementEntry env ratio op tp (account, i) = .ok tp := by
  simp only [settlementEntry, hbusiness, hamount, hunit, ne_eq, not_true_eq_false, if_false]
  generalize getRatioValue env ratio amount 1000000000000000000 8 = t at hquotient hdvd ⊢
  rw [if_pos]
  intro hproduct
  apply hdvd
  have hle := Nat.div_mul_le_self t.toNat (pieceUnit tp).toNat
  have hlt := t.isLt
  have hvalue := congrArg BitVec.toNat hproduct
  simp only [BitVec.toNat_mul, BitVec.toNat_setWidth, BitVec.toNat_udiv] at hvalue
  rw [Nat.mod_eq_of_lt hquotient, Nat.mod_eq_of_lt (hquotient.trans (by decide)),
    Nat.mod_eq_of_lt (by omega)] at hvalue
  exact Dvd.intro_left _ hvalue

theorem settlementEntry_eq_grantOf (hunit : pieceUnit tp ≠ 0) (hquotients : QuotientsFit env op tp)
    (payPieces : Pieces) {account : String} {i : ℕ} (hbusiness : i < op.businessType.length)
    (hamount : i < op.amount.length) :
    settlementEntry env (env.decimals.decimal (getRatio tp.pieces) 18) op
        { tp with payPieces := payPieces } (account, i) =
      .ok { tp with
        payPieces := creditAll payPieces (grantOf env op tp (account, i)).toList } := by
  have htype : op.businessType[i]? = some _ := List.getElem?_eq_getElem hbusiness
  have htotal : op.amount[i]? = some _ := List.getElem?_eq_getElem hamount
  generalize op.businessType[i] = businessType at htype
  generalize op.amount[i] = amount at htotal
  by_cases hreceipt : businessType = env.torrentReceiptTransfer
  · subst hreceipt
    have hquotient := hquotients i amount htype htotal
    by_cases hdvd : (pieceUnit tp).toNat ∣ entryTotal env tp amount
    · have hgrant : grantOf env op tp (account, i) =
          some (account, entryTotal env tp amount / (pieceUnit tp).toNat) := by
        simp [grantOf, htype, htotal, hdvd]
      rw [hgrant]
      exact @settlementEntry_of_total env op { tp with payPieces := payPieces } account i _ amount
        hunit htype htotal hquotient _ (Nat.div_mul_cancel hdvd).symm
    · have hgrant : grantOf env op tp (account, i) = none := by
        simp [grantOf, htype, htotal, hdvd]
      rw [hgrant]
      exact @settlementEntry_of_not_dvd env op { tp with payPieces := payPieces } _ account i amount
        hunit htotal htype hquotient hdvd
  · have hgrant : grantOf env op tp (account, i) = none := by
      simp [grantOf, htype, htotal, hreceipt]
    rw [hgrant]
    simp only [settlementEntry, htype, hreceipt, ne_eq, not_false_eq_true, if_true]
    rfl

/-- The loop credits the grants one after the other and does nothing else. -/
theorem settle_eq_creditAll (hunit : pieceUnit tp ≠ 0) (hquotients : QuotientsFit env op tp)
    (hamount : op.amount.length = op.account.length)
    (hbusiness : op.businessType.length = op.account.length) :
    settle env op tp =
      .ok { tp with payPieces := creditAll tp.payPieces (grants env op tp) } := by
  have hindices : ∀ entry ∈ op.account.zipIdx, entry.2 < op.account.length :=
    fun entry hentry => by simpa using (List.mem_zipIdx hentry).2.1
  suffices hloop : ∀ (entries : List (String × ℕ)) (payPieces : Pieces),
      (∀ entry ∈ entries, entry.2 < op.account.length) →
        entries.foldlM (settlementEntry env (env.decimals.decimal (getRatio tp.pieces) 18) op)
            { tp with payPieces := payPieces } =
          .ok { tp with
            payPieces := creditAll payPieces (entries.filterMap (grantOf env op tp)) } from
    hloop op.account.zipIdx tp.payPieces hindices
  intro entries
  induction entries with
  | nil => exact fun _ _ => rfl
  | cons entry entries ih =>
      intro payPieces hentries
      obtain ⟨account, i⟩ := entry
      have hi : i < op.account.length := hentries (account, i) List.mem_cons_self
      rw [List.foldlM_cons, settlementEntry_eq_grantOf hunit hquotients payPieces (by omega)
        (by omega)]
      refine (ih _ fun entry hentry => hentries entry (List.mem_cons_of_mem _ hentry)).trans ?_
      rw [List.filterMap_cons, ← creditAll_append]
      cases grantOf env op tp (account, i) <;> rfl

/-- The transaction is handled and saved, and the saved payment differs from `tp` by
what the entries grant. -/
def SettledExactly (env : Environment) (s : ServerState) (step : Step) (op : SettlementOperation)
    (tp : TorrentPayment) : Prop :=
  ∃ s' payPieces, handleTransaction env s step = .ok s' ∧
    s'.db.get tp.paymentId = some (.torrentPayment { tp with payPieces := payPieces }) ∧
    Accumulated tp.payPieces payPieces (grants env op tp)

variable {s : ServerState} {step : Step} {proposal : HashId}

theorem handleTransaction_of_settlement (hop : handledOperation step.trx = some (.settlement op))
    (hproposal : step.trx.proposalTransactionId = some proposal)
    (htp : getTorrentPayment s.db proposal = some tp) (hunit : pieceUnit tp ≠ 0)
    (hamount : op.amount.length = op.account.length)
    (hbusiness : op.businessType.length = op.account.length)
    (hquotients : QuotientsFit env op tp) (hput : putOutcome step.puts 0 = true) :
    ∃ s', handleTransaction env s step = .ok s' ∧
      s'.db.get tp.paymentId = some (.torrentPayment
        { tp with payPieces := creditAll tp.payPieces (grants env op tp) }) := by
  have hsettle := settle_eq_creditAll hunit hquotients hamount hbusiness
  refine ⟨perform env (Plan.savePayment
    { tp with payPieces := creditAll tp.payPieces (grants env op tp) }).effects step.puts s, ?_, ?_⟩
  · simp only [handleTransaction, transactionPlan, hop, hproposal, htp, hsettle]
    rfl
  · rw [Plan.effects, perform_single, hput, if_pos rfl]
    exact get_saveOrUpdate_self s.db _

theorem SettledExactly.accumulated (h : SettledExactly env s step op tp) {s' : ServerState}
    {payPieces : Pieces} (hs' : handleTransaction env s step = .ok s')
    (hget : s'.db.get tp.paymentId = some (.torrentPayment { tp with payPieces := payPieces })) :
    Accumulated tp.payPieces payPieces (grants env op tp) := by
  obtain ⟨s'', payPieces', hs'', hget', haccumulated⟩ := h
  rw [hs'] at hs''
  cases hs''
  rw [hget] at hget'
  obtain rfl : payPieces = payPieces' := by simpa using hget'
  exact haccumulated

/-- A settlement adds exactly the pieces of its accepted entries, unless the name of an
account is cut at a zero character and what was collected under the rest of it
is thrown away. -/
theorem settlement_accumulates_iff (hop : handledOperation step.trx = some (.settlement op))
    (hproposal : step.trx.proposalTransactionId = some proposal)
    (htp : getTorrentPayment s.db proposal = some tp) (hunit : pieceUnit tp ≠ 0)
    (hamount : op.amount.length = op.account.length)
    (hbusiness : op.businessType.length = op.account.length)
    (hquotients : QuotientsFit env op tp) (hput : putOutcome step.puts 0 = true) :
    SettledExactly env s step op tp ↔ CutsHarmless tp.payPieces (grants env op tp) := by
  obtain ⟨s', hs', hget⟩ := handleTransaction_of_settlement hop hproposal htp hunit hamount
    hbusiness hquotients hput
  constructor
  · intro h
    exact accumulated_iff.mp (h.accumulated hs' hget)
  · intro hharmless
    exact ⟨s', _, hs', hget, accumulated_iff.mpr hharmless⟩

end Loop

section Sample

def seededPayment : TorrentPayment :=
  { paymentId := samplePayment.trx.id.str
    pieces := 10
    transferOnePieceAmount := "2000000000000"
    receiverAuthorOnePieceAmount := "0"
    payPieces := Finmap.singleton "seeder" 5 }

def seededState : ServerState :=
  { ServerState.empty with
    db := saveOrUpdate ServerState.empty.db (.torrentPayment seededPayment) true }

def settlementOf (accounts : List String) : SettlementOperation where
  account := accounts
  amount := [1990000000000, 3980000000000, 2000000000000]
  businessType := [1, 1, 1]

def settlementStep (accounts : List String) : Step where
  blockNum := 3
  trx :=
    { id := sampleRefund.trx.id
      validateType := 1
      proposalTransactionId := some samplePayment.trx.id
      operations := [.settlement (settlementOf accounts)]
      operationResults := [] }
  puts := []

theorem quotientsFit_settlementOf (accounts : List String) :
    QuotientsFit .oneAsset (settlementOf accounts) seededPayment := by
  rintro i amount - hamount
  have hall : ∀ amount ∈ (settlementOf accounts).amount,
      entryTotal .oneAsset seededPayment amount / (pieceUnit seededPayment).toNat < 2 ^ 64 := by
    simp only [settlementOf, List.forall_mem_cons]
    exact ⟨by decide +kernel, by decide +kernel, by decide +kernel, by simp⟩
  exact hall amount (List.mem_of_getElem? hamount)

theorem repeated_account_settled :
    SettledExactly .oneAsset seededState (settlementStep ["seeder", "seeder", "other"])
      (settlementOf ["seeder", "seeder", "other"]) seededPayment := by
  refine (settlement_accumulates_iff rfl rfl rfl (by decide) rfl rfl
    (quotientsFit_settlementOf _) rfl).mpr ?_
  apply cutsHarmless_of_whole
  have hgrants : accounts (grants .oneAsset (settlementOf ["seeder", "seeder", "other"])
      seededPayment) = ["seeder", "seeder"] := by decide +kernel
  rw [hgrants]
  simp

/-- The first receipt of `seeder\x00` sets the five pieces of `seeder` to zero. -/
theorem cut_name_loses_pieces :
    ¬ ∀ (env : Environment) (s : ServerState) (step : Step) (op : SettlementOperation)
        (proposal : HashId) (tp : TorrentPayment),
      handledOperation step.trx = some (.settlement op) →
      step.trx.proposalTransactionId = some proposal →
      getTorrentPayment s.db proposal = some tp → pieceUnit tp ≠ 0 →
      op.amount.length = op.account.length → op.businessType.length = op.account.length →
      QuotientsFit env op tp → putOutcome step.puts 0 = true →
        SettledExactly env s step op tp := by
  intro h
  let accounts := ["seeder\x00", "other", "other"]
  have hunit : pieceUnit seededPayment ≠ 0 := by decide
  have hquotients := quotientsFit_settlementOf accounts
  have hsettled := h .oneAsset seededState (settlementStep accounts) (settlementOf accounts) _
    seededPayment rfl rfl rfl hunit rfl rfl hquotients rfl
  obtain ⟨s', hs', hget⟩ := @handleTransaction_of_settlement .oneAsset (settlementOf accounts)
    seededPayment seededState (settlementStep accounts) _ rfl rfl rfl hunit rfl rfl hquotients rfl
  have hpieces := (hsettled.accumulated hs' hget).pieces "seeder"
  revert hpieces
  decide +kernel

end Sample

end TorrentServer.SettlementLoop
