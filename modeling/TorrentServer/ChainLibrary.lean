import TorrentServer.Records

namespace TorrentServer.ChainLibrary

open TorrentServer.Records

/-- The `mpd` helpers: `Mpd` is a decimal number of libmpdec. -/
structure Decimals where
  Mpd : Type
  decimal : String → Nat → Mpd
  devideInt64ToMpd : ShareType → UInt64 → Nat → Mpd
  mpdDiv : Mpd → Mpd → Mpd
  mulMpdToInt64 : Mpd → UInt64 → Nat → ShareType
  mpdToSci : Mpd → Nat → String

/-- The helpers on scaled integers: a pair stands for the first component divided
by ten to the second, and a quotient is kept to forty places. -/
def Decimals.scaled : Decimals where
  Mpd := Nat × Nat
  decimal text _ :=
    (Nat.ofDigitChars 10 (text.toList.filter Char.isDigit) 0,
      (text.toList.dropWhile (· ≠ '.')).length - 1)
  devideInt64ToMpd amount precision places :=
    (amount.toNat * 10 ^ places / precision.toNat, places)
  mpdDiv a b := (a.1 * 10 ^ (40 + b.2) / (b.1 * 10 ^ a.2), 40)
  mulMpdToInt64 a precision _ :=
    BitVec.ofNat 128 (a.1 * precision.toNat / 10 ^ a.2)
  mpdToSci a _ :=
    (a.1 / 10 ^ a.2).repr ++ "." ++
      String.ofList (((a.1 % 10 ^ a.2 + 10 ^ a.2).repr.toList).drop 1)

structure SimpleAsset where
  basePrecision : UInt64
deriving DecidableEq

structure Environment where
  decimals : Decimals
  assets : Finmap fun _ : Int => SimpleAsset
  torrentAuthorPercent : UInt32
  torrentAuthorPercent_ne_zero : torrentAuthorPercent ≠ 0
  torrentReceiptTransfer : UInt32

def getAssetById (env : Environment) (id : Int) : Option SimpleAsset :=
  env.assets.lookup id

/-- The lookup `get_asset_by_id(b.asset())`: the unsigned field is converted to
the `int` parameter. -/
def assetOf (env : Environment) (asset : UInt32) : Option SimpleAsset :=
  getAssetById env asset.toInt32.toInt

def Environment.oneAsset : Environment where
  decimals := .scaled
  assets := Finmap.singleton 1 { basePrecision := 100000000 }
  torrentAuthorPercent := 100
  torrentAuthorPercent_ne_zero := by decide
  torrentReceiptTransfer := 1

end TorrentServer.ChainLibrary
