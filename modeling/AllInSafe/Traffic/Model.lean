import Mathlib.Tactic.Common

/-!
# The history of the traffic

`TrafficHistory`, and the listeners for byte counts of `VpnStatus`. A `long` is a bit vector, and `/` truncates.
-/

namespace AllInSafe.Traffic

def PERIODS_TO_KEEP : Int := 5
def TIME_PERIOD_MINTUES : Int := 60 * 1000
def TIME_PERIOD_HOURS : Int := 3600 * 1000

structure TrafficDatapoint where
  inBytes : BitVec 64
  outBytes : BitVec 64
  timestamp : BitVec 64
  deriving DecidableEq, Repr

structure TrafficHistory where
  trafficHistorySeconds : List TrafficDatapoint := []
  trafficHistoryMinutes : List TrafficDatapoint := []
  trafficHistoryHours : List TrafficDatapoint := []
  lastSecondUsedForMinute : Option TrafficDatapoint := none
  lastMinuteUsedForHours : Option TrafficDatapoint := none
  deriving DecidableEq, Repr

/-! ## LastDiff -/

structure LastDiff where
  lasttdp : TrafficDatapoint
  tdp : TrafficDatapoint
  deriving DecidableEq, Repr

namespace LastDiff

def getDiffOut (d : LastDiff) : Int := max 0 (d.tdp.outBytes - d.lasttdp.outBytes).toInt

def getDiffIn (d : LastDiff) : Int := max 0 (d.tdp.inBytes - d.lasttdp.inBytes).toInt

def getIn (d : LastDiff) : BitVec 64 := d.tdp.inBytes

def getOut (d : LastDiff) : BitVec 64 := d.tdp.outBytes

end LastDiff

/-! ## Periods -/

/-- The number of the period of a point. -/
def periodOf (timePeriod : Int) (tdp : TrafficDatapoint) : Int := tdp.timestamp.toInt.tdiv timePeriod

/-- The points that are not removed when `newTdp` starts a period. -/
def kept (timePeriod : Int) (newTdp : TrafficDatapoint) (tpList : List TrafficDatapoint) : List TrafficDatapoint :=
  tpList.filter fun tph => (newTdp.timestamp - tph.timestamp).toInt.tdiv timePeriod < PERIODS_TO_KEEP

namespace TrafficHistory

/-- A new iterator from the end gives the last point each time. -/
def getLastDiff (tdp : Option TrafficDatapoint) (currentTimeMillis : BitVec 64) (h : TrafficHistory) : LastDiff :=
  let lasttdp := h.trafficHistorySeconds.getLast?.getD ⟨0, 0, currentTimeMillis⟩
  match tdp with
  | some tdp => ⟨lasttdp, tdp⟩
  | none =>
      let tdp := lasttdp
      if h.trafficHistorySeconds.length < 2 then ⟨tdp, tdp⟩
      else
        let tdp := h.trafficHistorySeconds.reverse.head?.getD tdp
        ⟨lasttdp, tdp⟩

/-- `removeAndAverage` for the hours. -/
def removeAndAverageMinutes (newTdp : TrafficDatapoint) (h : TrafficHistory) : TrafficHistory :=
  let lastTsPeriod := h.lastMinuteUsedForHours.getD ⟨0, 0, 0⟩
  if periodOf TIME_PERIOD_HOURS newTdp > periodOf TIME_PERIOD_HOURS lastTsPeriod then
    { h with
      trafficHistoryHours := h.trafficHistoryHours ++ [newTdp]
      lastMinuteUsedForHours := some newTdp
      trafficHistoryMinutes := kept TIME_PERIOD_HOURS newTdp h.trafficHistoryMinutes }
  else h

/-- `removeAndAverage` for the minutes. -/
def removeAndAverageSeconds (newTdp : TrafficDatapoint) (h : TrafficHistory) : TrafficHistory :=
  let lastTsPeriod := h.lastSecondUsedForMinute.getD ⟨0, 0, 0⟩
  if periodOf TIME_PERIOD_MINTUES newTdp > periodOf TIME_PERIOD_MINTUES lastTsPeriod then
    let h := { h with trafficHistoryMinutes := h.trafficHistoryMinutes ++ [newTdp] }
    let h := removeAndAverageMinutes newTdp { h with lastSecondUsedForMinute := some newTdp }
    { h with trafficHistorySeconds := kept TIME_PERIOD_MINTUES newTdp h.trafficHistorySeconds }
  else h

def addDataPoint (tdp : TrafficDatapoint) (h : TrafficHistory) : TrafficHistory :=
  let h := { h with trafficHistorySeconds := h.trafficHistorySeconds ++ [tdp] }
  let h :=
    match h.lastSecondUsedForMinute with
    | none => { h with lastSecondUsedForMinute := some ⟨0, 0, 0⟩, lastMinuteUsedForHours := some ⟨0, 0, 0⟩ }
    | some _ => h
  removeAndAverageSeconds tdp h

/-- `add` of the totals of `tdp` at its time. -/
def add (tdp : TrafficDatapoint) (h : TrafficHistory) : LastDiff × TrafficHistory :=
  (getLastDiff (some tdp) tdp.timestamp h, addDataPoint tdp h)

end TrafficHistory

/-! ## VpnStatus -/

/-- The arguments of `updateByteCount` of a listener. -/
structure ByteCount where
  inBytes : BitVec 64
  outBytes : BitVec 64
  diffIn : Int
  diffOut : Int
  deriving DecidableEq, Repr

/-- What the listeners are called with, and the history afterwards. -/
def updateByteCount (tdp : TrafficDatapoint) (trafficHistory : TrafficHistory) : ByteCount × TrafficHistory :=
  let (diff, trafficHistory) := trafficHistory.add tdp
  (⟨tdp.inBytes, tdp.outBytes, diff.getDiffIn, diff.getDiffOut⟩, trafficHistory)

/-- What a new listener is called with. -/
def addByteCountListener (currentTimeMillis : BitVec 64) (trafficHistory : TrafficHistory) : ByteCount :=
  let diff := trafficHistory.getLastDiff none currentTimeMillis
  ⟨diff.getIn, diff.getOut, diff.getDiffIn, diff.getDiffOut⟩

end AllInSafe.Traffic
