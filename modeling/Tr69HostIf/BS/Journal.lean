import Tr69HostIf.HostIf
import Tr69HostIf.Store.KeyValue
import Tr69HostIf.Store.Record

/-!
# `XBSStoreJournal`

The journal of `XrdkCentralComBSStoreJournal.cpp`: for each bootstrap parameter its firmware value and the
last value set over it, with the source of that set. A record is one line of six quoted fields. The mark
`clearRfc` lives in memory only.
-/

namespace Tr69HostIf.BS
open Store

/-- `BS_JournalData_t`. -/
structure JournalData where
  fwValue : Text
  buildTime : Text
  updatedValue : Text
  updatedTime : Text
  updatedSource : SourceType
  clearRfc : Bool
  deriving DecidableEq

/-- The members of `XBSStoreJournal` and the file behind it. -/
structure XBSStoreJournal where
  dict : Dict Text JournalData
  file : Option Text
  buildTime : Text
  initialUpdate : Bool

/-- The fields of `struct tm` that `getTime` prints. -/
structure Tm where
  year : Nat
  mon : Nat
  mday : Nat
  hour : Nat
  min : Nat
  sec : Nat

/-- `"-"`, written where a record has no value. -/
def dash : Text := ['-']

/-! ## The line of a record -/

/-- `getUpdatedSourceString`. -/
def getUpdatedSourceString : SourceType → Text
  | .rfc => "rfc".toList
  | .webpa => "webpa".toList
  | _ => dash

/-- The comparison of `loadJournalRecordsIntoCache` with `BS_RFC_STR` and `BS_WEBPA_STR`. -/
def sourceOfString (t : Text) : SourceType :=
  if t = "rfc".toList then .rfc else if t = "webpa".toList then .webpa else .default

/-- The line `rfcUpdateEnd` and `setJournalValue` write for a record. -/
def journalLine (p : Text × JournalData) : Text :=
  let r := p.2
  let sep := "\",\"".toList
  '"' :: p.1 ++ sep ++ r.fwValue ++ sep ++ r.buildTime ++ sep ++ r.updatedValue ++ sep ++ r.updatedTime ++ sep ++
    getUpdatedSourceString r.updatedSource ++ ['"'] ++ ['\n']

/-- The text written for a list of records. -/
def renderJournal (l : List (Text × JournalData)) : Text := l.flatMap journalLine

/-- The record read from one line: `getline(ss, ..., ',')` six times, where a `getline` past the end of the
line leaves an empty string. -/
def recordOfLine (line : Text) : Text × JournalData :=
  let field i := (fields line).getD i []
  (field 0,
    { fwValue := field 1, buildTime := field 2, updatedValue := field 3, updatedTime := field 4
      updatedSource := sourceOfString (field 5), clearRfc := false })

/-- The records of a journal file, in the order of its lines. -/
def records (t : Text) : List (Text × JournalData) := (getlines t).map recordOfLine

/-- `loadJournalRecordsIntoCache` on a file that opens. -/
def loadJournal (t : Text) : Dict Text JournalData := ofList (records t)

/-! ## Times -/

/-- A number in at least two digits, as `%m` and its likes print it. -/
def twoDigits (n : Nat) : Text := if n < 10 then '0' :: Nat.toDigits 10 n else Nat.toDigits 10 n

/-- `getTime`: `strftime` with `"%Y-%m-%d %H:%M:%S "`. -/
def getTime (t : Tm) : Text :=
  Nat.toDigits 10 t.year ++ '-' :: twoDigits t.mon ++ '-' :: twoDigits t.mday ++ ' ' :: twoDigits t.hour ++
    ':' :: twoDigits t.min ++ ':' :: twoDigits t.sec ++ [' ']

/-- `getBuildTime`: the last `BUILD_TIME` of `/version.txt`, without quotes. -/
def getBuildTime (version : Option Text) : Text :=
  dropQuotes ((entries (version.getD [])).foldl
    (fun b p => if cStr p.1 = "BUILD_TIME".toList then p.2 else b) [])

/-! ## The operations -/

/-- The constructor: the build time and the records of the file. -/
def XBSStoreJournal.start (version : Option Text) (readOk : Bool) (file : Option Text) : XBSStoreJournal :=
  { dict := if readOk then loadJournal (file.getD []) else ∅
    file := file, buildTime := getBuildTime version, initialUpdate := false }

/-- `getJournalSource`. -/
def getJournalSource (j : XBSStoreJournal) (key : Text) : SourceType :=
  match j.dict.lookup key with
  | some r => r.updatedSource
  | none => .none

/-- The record `setJournalValue` stores, from the one that was there. -/
def updatedRecord (buildTime : Text) (now : Tm) (value : Text) (bsSource : SourceType) :
    Option JournalData → JournalData
  | none =>
      if bsSource ≠ .default then
        { fwValue := dash, buildTime := buildTime, updatedValue := value, updatedTime := getTime now
          updatedSource := bsSource, clearRfc := false }
      else
        { fwValue := value, buildTime := buildTime, updatedValue := dash, updatedTime := dash
          updatedSource := .default, clearRfc := false }
  | some r =>
      if bsSource = .default then { r with fwValue := value, buildTime := buildTime }
      else
        { r with updatedValue := value, updatedTime := getTime now, updatedSource := bsSource, clearRfc := false }

/-- `setJournalValue`. -/
def setJournalValue (order : Order Text) (writeOk : Bool) (now : Tm) (key value : Text) (bsSource : SourceType)
    (j : XBSStoreJournal) : Bool × XBSStoreJournal :=
  let r := updatedRecord j.buildTime now value bsSource (j.dict.lookup key)
  if writeOk then
    let dict := j.dict.insert key r
    (true, { j with
      dict := dict
      file := some (if j.initialUpdate then j.file.getD [] ++ journalLine (key, r)
        else renderJournal (order.enum dict)) })
  else (false, j)

/-- The record `rfcUpdateStarted` stores back, if it does. -/
def JournalData.marked (r : JournalData) : Option JournalData :=
  if r.updatedSource = .rfc then some { r with clearRfc := true } else none

/-- `rfcUpdateStarted`: a mark on every record that RFC set. -/
def rfcUpdateStarted (order : Order Text) (j : XBSStoreJournal) : XBSStoreJournal :=
  { j with dict := rewriteAll JournalData.marked j.dict (order.enum j.dict) }

/-- `rfcUpdateEnd`. -/
def rfcUpdateEnd (order : Order Text) (writeOk : Bool) (j : XBSStoreJournal) : XBSStoreJournal :=
  if writeOk then { j with file := some (renderJournal (order.enum j.dict)) } else j

/-- A record after its mark has been served. -/
def JournalData.cleared (r : JournalData) : JournalData :=
  { r with updatedValue := dash, updatedTime := dash, updatedSource := .default, clearRfc := false }

/-- `clearRfcAndGetDefaultValue`: the firmware value, when the record is marked. -/
def clearRfcAndGetDefaultValue (key : Text) (j : XBSStoreJournal) : Option Text × XBSStoreJournal :=
  match j.dict.lookup key with
  | some r =>
      if r.clearRfc then (some r.fwValue, { j with dict := j.dict.insert key r.cleared }) else (none, j)
  | none => (none, j)

/-- `resetClearRfc`. -/
def resetClearRfc (key : Text) (j : XBSStoreJournal) : XBSStoreJournal :=
  match j.dict.lookup key with
  | some r => if r.clearRfc then { j with dict := j.dict.insert key { r with clearRfc := false } } else j
  | none => j

/-- `removeRecord`. -/
def removeRecord (key : Text) (j : XBSStoreJournal) : XBSStoreJournal := { j with dict := j.dict.erase key }

/-- `XBSStoreJournal::resetCacheAndStore`. -/
def XBSStoreJournal.reset (j : XBSStoreJournal) : XBSStoreJournal := { j with dict := ∅, file := none }

end Tr69HostIf.BS
