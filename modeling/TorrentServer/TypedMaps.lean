import TorrentServer.TorrentDatabase

namespace TorrentServer.TypedMaps

open TorrentServer.Records
open TorrentServer.TorrentDatabase
open TorrentServer.Library.KeyValueStore

/-- The database after a sequence of successful saves, a torrent saved by
`save_or_update_torrent` and a payment by `save_or_update_torrent_payment`. -/
def saveAll (saves : List Message) : Database :=
  saves.foldl (fun db record => saveOrUpdate db record true) Store.empty

def lastSave (saves : List Message) (key : String) : Option Message :=
  (saves.filter (·.key = key)).getLast?

/-- The abstract torrent map: under a key the torrent last saved with that id. -/
def lastTorrent (saves : List Message) (key : String) : Option Torrent :=
  ((saves.filter (·.key = key)).filterMap Message.torrent?).getLast?

def lastTorrentPayment (saves : List Message) (key : String) : Option TorrentPayment :=
  ((saves.filter (·.key = key)).filterMap Message.torrentPayment?).getLast?

def TorrentMapAt (saves : List Message) (key : String) : Prop :=
  getTorrent (saveAll saves) key = lastTorrent saves key ∧
    (hasTorrent (saveAll saves) key = true ↔ (lastTorrent saves key).isSome)

/-- The payment functions answer at `key` as the payment map does. The getter
takes an id, so it can be asked only for keys that are texts of ids. -/
def PaymentMapAt (saves : List Message) (key : String) : Prop :=
  (∀ id : HashId, id.str = key →
    getTorrentPayment (saveAll saves) id = lastTorrentPayment saves key) ∧
    (hasTorrentPayment (saveAll saves) key = true ↔
      (lastTorrentPayment saves key).isSome)

/-- The fields a torrent has in common with a payment, by number and wire type, are those of
the payment, and the others are empty. -/
@[mk_iff] structure TorrentCoincides (t : Torrent) (tp : TorrentPayment) : Prop where
  id : t.id = tp.paymentId
  transactionId : t.transactionId = tp.torrentId
  time : t.time = tp.time
  createBlock : t.createBlock = tp.createTime
  lastModify : t.lastModify = tp.selttementTime
  userId : t.userId = ""
  asset : t.asset = 0
  balance : t.balance = ""
  percent : t.percent = tp.pieces
  payTimes : t.payTimes = tp.payedPieces
  finishTimes : t.finishTimes = tp.sizes.toUInt32
  isCreate : t.isCreate = (tp.percent != 0)

@[mk_iff] structure PaymentCoincides (tp : TorrentPayment) (t : Torrent) : Prop where
  paymentId : tp.paymentId = t.id
  torrentId : tp.torrentId = t.transactionId
  time : tp.time = t.time
  createTime : tp.createTime = t.createBlock
  selttementTime : tp.selttementTime = t.lastModify
  refundTime : tp.refundTime = 0
  userId : tp.userId = ""
  asset : tp.asset = 0
  pieces : tp.pieces = t.percent
  payedPieces : tp.payedPieces = t.payTimes
  sizes : tp.sizes = t.finishTimes.toUInt64
  percent : tp.percent = if t.isCreate then 1 else 0
  isSelttement : tp.isSelttement = false
  isRefund : tp.isRefund = false
  signAddress : tp.signAddress = ""
  payPieces : tp.payPieces = ∅
  selttementTrxId : tp.selttementTrxId = ""
  refundTrxId : tp.refundTrxId = ""
  receiptTrxId : tp.receiptTrxId = ""
  increaseTrx : tp.increaseTrx = ∅
  authorAmount : tp.authorAmount = ""
  paymentAmount : tp.paymentAmount = ""
  transferOnePieceAmount : tp.transferOnePieceAmount = ""
  authorOnePieceAmount : tp.authorOnePieceAmount = ""
  receiverAuthorOnePieceAmount : tp.receiverAuthorOnePieceAmount = ""

/-- The last record under the key is no payment, or it is one with which the last torrent
saved there happens to coincide. -/
def TorrentReadsBack (saves : List Message) (key : String) : Prop :=
  ∀ tp, lastSave saves key = some (.torrentPayment tp) →
    ∃ t, lastTorrent saves key = some t ∧ TorrentCoincides t tp

/-- The last record under the key is no torrent, or some payment was saved there too and,
where the key can be asked for, the last one happens to coincide with the torrent. -/
def PaymentReadsBack (saves : List Message) (key : String) : Prop :=
  ∀ t, lastSave saves key = some (.torrent t) →
    ∃ tp, lastTorrentPayment saves key = some tp ∧
      ∀ id : HashId, id.str = key → PaymentCoincides tp t

theorem parseTorrent_eq_iff (t : Torrent) (tp : TorrentPayment) :
    Message.parseTorrent (.torrentPayment tp) = t ↔ TorrentCoincides t tp := by
  obtain ⟨⟩ := t
  rw [eq_comm, torrentCoincides_iff, Message.parseTorrent, Torrent.mk.injEq]

theorem parseTorrentPayment_eq_iff (tp : TorrentPayment) (t : Torrent) :
    Message.parseTorrentPayment (.torrent t) = tp ↔ PaymentCoincides tp t := by
  obtain ⟨⟩ := tp
  rw [eq_comm, paymentCoincides_iff, Message.parseTorrentPayment, TorrentPayment.mk.injEq]

theorem get_saveAll (saves : List Message) (key : String) :
    (saveAll saves).get key = lastSave saves key := by
  induction saves using List.reverseRecOn with
  | nil => rfl
  | append_singleton saves record ih =>
      have hstep : saveAll (saves ++ [record]) =
          saveOrUpdate (saveAll saves) record true := by
        simp [saveAll]
      rw [hstep, get_saveOrUpdate, ih]
      by_cases hkey : key = record.key
      · simp [lastSave, hkey]
      · have hne : record.key ≠ key := fun heq => hkey heq.symm
        simp [lastSave, hkey, hne]

theorem getLast?_filterMap_of_getLast? {α β : Type*} {f : α → Option β} {xs : List α}
    {x : α} {y : β} (hlast : xs.getLast? = some x) (hx : f x = some y) :
    (xs.filterMap f).getLast? = some y := by
  obtain ⟨init, rfl⟩ := List.getLast?_eq_some_iff.mp hlast
  simp [List.filterMap_append, hx]

theorem lastTorrent_of_lastSave {saves : List Message} {key : String} {t : Torrent}
    (h : lastSave saves key = some (.torrent t)) : lastTorrent saves key = some t :=
  getLast?_filterMap_of_getLast? h rfl

theorem lastTorrentPayment_of_lastSave {saves : List Message} {key : String}
    {tp : TorrentPayment} (h : lastSave saves key = some (.torrentPayment tp)) :
    lastTorrentPayment saves key = some tp :=
  getLast?_filterMap_of_getLast? h rfl

theorem filter_eq_nil_of_lastSave {saves : List Message} {key : String}
    (h : lastSave saves key = none) : saves.filter (·.key = key) = [] :=
  List.getLast?_eq_none_iff.mp h

theorem getTorrent_saveAll (saves : List Message) (key : String) :
    getTorrent (saveAll saves) key = (lastSave saves key).map Message.parseTorrent := by
  rw [getTorrent, get_saveAll]

theorem getTorrentPayment_saveAll (saves : List Message) (id : HashId) :
    getTorrentPayment (saveAll saves) id =
      (lastSave saves id.str).map Message.parseTorrentPayment := by
  rw [getTorrentPayment, get_saveAll]

/-- As long as the last record under the key is no payment, the torrent functions answer as
the map. -/
theorem torrentMapAt_of_lastSave {saves : List Message} {key : String}
    (h : ∀ tp, lastSave saves key ≠ some (.torrentPayment tp)) : TorrentMapAt saves key := by
  unfold TorrentMapAt hasTorrent
  rw [getTorrent_saveAll, get_saveAll]
  cases hlast : lastSave saves key with
  | none => simp [lastTorrent, filter_eq_nil_of_lastSave hlast]
  | some record =>
      cases record with
      | torrent t => simp [lastTorrent_of_lastSave hlast, Message.parseTorrent]
      | torrentPayment tp => exact absurd hlast (h tp)

theorem paymentMapAt_of_lastSave {saves : List Message} {key : String}
    (h : ∀ t, lastSave saves key ≠ some (.torrent t)) : PaymentMapAt saves key := by
  unfold PaymentMapAt hasTorrentPayment
  rw [get_saveAll]
  cases hlast : lastSave saves key with
  | none =>
      refine ⟨?_, by simp [lastTorrentPayment, filter_eq_nil_of_lastSave hlast]⟩
      rintro id rfl
      simp [getTorrentPayment_saveAll, hlast, lastTorrentPayment, filter_eq_nil_of_lastSave hlast]
  | some record =>
      cases record with
      | torrent t => exact absurd hlast (h t)
      | torrentPayment tp =>
          have hmap := lastTorrentPayment_of_lastSave hlast
          refine ⟨?_, by simp [hmap]⟩
          rintro id rfl
          rw [getTorrentPayment_saveAll, hlast, hmap]
          rfl

theorem torrentMapAt_iff (saves : List Message) (key : String) :
    TorrentMapAt saves key ↔ TorrentReadsBack saves key := by
  by_cases hkind : ∃ tp, lastSave saves key = some (.torrentPayment tp)
  · obtain ⟨tp, hlast⟩ := hkind
    unfold TorrentMapAt TorrentReadsBack hasTorrent
    rw [getTorrent_saveAll, get_saveAll, hlast]
    constructor
    · rintro ⟨hget, -⟩ _ ⟨⟩
      exact ⟨_, hget.symm, (parseTorrent_eq_iff _ tp).mp rfl⟩
    · intro hread
      obtain ⟨t, ht, hcoincides⟩ := hread tp rfl
      rw [ht, Option.map_some, (parseTorrent_eq_iff t tp).mpr hcoincides]
      simp
  · rw [not_exists] at hkind
    exact ⟨fun _ tp hlast => absurd hlast (hkind tp), fun _ => torrentMapAt_of_lastSave hkind⟩

theorem paymentMapAt_iff (saves : List Message) (key : String) :
    PaymentMapAt saves key ↔ PaymentReadsBack saves key := by
  by_cases hkind : ∃ t, lastSave saves key = some (.torrent t)
  · obtain ⟨t, hlast⟩ := hkind
    unfold PaymentMapAt PaymentReadsBack hasTorrentPayment
    rw [get_saveAll, hlast]
    constructor
    · rintro ⟨hget, hhas⟩ _ ⟨⟩
      obtain ⟨tp, htp⟩ := Option.isSome_iff_exists.mp (hhas.mp rfl)
      refine ⟨tp, htp, ?_⟩
      rintro id rfl
      have hread := hget id rfl
      rw [getTorrentPayment_saveAll, hlast, htp, Option.map_some, Option.some.injEq] at hread
      exact (parseTorrentPayment_eq_iff tp t).mp hread
    · intro hread
      obtain ⟨tp, htp, hcoincides⟩ := hread t rfl
      refine ⟨?_, by simp [htp]⟩
      rintro id rfl
      rw [getTorrentPayment_saveAll, hlast, htp, Option.map_some,
        (parseTorrentPayment_eq_iff tp t).mpr (hcoincides id rfl)]
  · rw [not_exists] at hkind
    exact ⟨fun _ t hlast => absurd hlast (hkind t), fun _ => paymentMapAt_of_lastSave hkind⟩

/-- When the two getters behave as two independent typed maps at a key: exactly when the
record last saved there is of their own kind, or happens to coincide with the last record
of that kind. A key under which only one kind was ever saved fails for the other kind's
functions. -/
theorem typedMapsAt_iff_readsBack (saves : List Message) (key : String) :
    (TorrentMapAt saves key ↔ TorrentReadsBack saves key) ∧
      (PaymentMapAt saves key ↔ PaymentReadsBack saves key) :=
  ⟨torrentMapAt_iff saves key, paymentMapAt_iff saves key⟩

theorem payment_appears_as_torrent :
    ¬ ∀ (saves : List Message) (key : String),
      TorrentMapAt saves key ∧ PaymentMapAt saves key := by
  intro hall
  let id := HashId.ofDigit '0' rfl
  have hget := (hall [.torrentPayment { paymentId := id.str }] id.str).1.1
  exact absurd hget (by decide)

end TorrentServer.TypedMaps
