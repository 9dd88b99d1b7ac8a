import TorrentServer.Library.KeyValueStore
import TorrentServer.Records

/-!
`btp::torrent_database` of `ts_database.cpp`. Both record kinds are written
under their bare id into one LevelDB. A save takes the status of its `Put` as
an argument and returns 0 exactly when that status is ok.
-/

namespace TorrentServer.TorrentDatabase

open TorrentServer.Library.KeyValueStore
open TorrentServer.Records

abbrev Database := Store Message

def saveOrUpdate (db : Database) (record : Message) (ok : Bool) : Database :=
  db.put record.key record ok

def saveOrUpdateTorrent (db : Database) (b : Torrent) (ok : Bool) : Database :=
  saveOrUpdate db (.torrent b) ok

def saveOrUpdateTorrentPayment (db : Database) (b : TorrentPayment) (ok : Bool) :
    Database :=
  saveOrUpdate db (.torrentPayment b) ok

/-- A value that is found is parsed; whether it parses is not looked at. -/
def getTorrent (db : Database) (torrentId : String) : Option Torrent :=
  (db.get torrentId).map Message.parseTorrent

def hasTorrent (db : Database) (torrentId : String) : Bool :=
  (db.get torrentId).isSome

def getTorrentPayment (db : Database) (torrentPaymentId : HashId) :
    Option TorrentPayment :=
  (db.get torrentPaymentId.str).map Message.parseTorrentPayment

def hasTorrentPayment (db : Database) (torrentPaymentId : String) : Bool :=
  (db.get torrentPaymentId).isSome

@[simp] theorem saveOrUpdate_false (db : Database) (record : Message) :
    saveOrUpdate db record false = db := rfl

theorem get_saveOrUpdate (db : Database) (record : Message) (key : String) :
    (saveOrUpdate db record true).get key =
      if key = record.key then some record else db.get key :=
  db.get_put record.key key record

@[simp] theorem get_saveOrUpdate_self (db : Database) (record : Message) :
    (saveOrUpdate db record true).get record.key = some record :=
  db.get_put_self record.key record

theorem get_saveOrUpdate_of_ne (db : Database) (record : Message) (ok : Bool)
    {key : String} (hne : key ≠ record.key) :
    (saveOrUpdate db record ok).get key = db.get key :=
  db.get_put_of_ne record ok hne

end TorrentServer.TorrentDatabase
