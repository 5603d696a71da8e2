import DbGovernor.Model.CalcStats

/-!
# The export of statistics

At the end of a tick the figures of each account are added up in `DbGovStatitrics`. After a
minute the records are printed to a file, which counts from its `rename` on; then the table is
emptied and a new period begins.
-/

namespace DbGovernor

variable [Rounding]

/-- `dbgov_statitrics`. The sums of reads and writes are exact integers in place of doubles. -/
structure DbgovStatitrics where
  username : Username
  maxSimultaneousRequests : ℤ
  sumCpu : ℚ
  sumWrite : ℤ
  sumRead : ℤ
  numberOfIterations : ℕ
  maxCpu : ℚ
  maxWrite : ℤ
  maxRead : ℤ
  numberOfRestricts : ℕ
  limitCpuOnPeriodEnd : ℤ
  limitReadOnPeriodEnd : ℤ
  limitWriteOnPeriodEnd : ℤ
  cause : ℕ
  ignored : ModeType
deriving DecidableEq

/-- `dbgov_was_user_activity`. -/
def dbgovWasUserActivity (dbgovst : DbgovStatitrics) : Bool :=
  (0 < dbgovst.sumCpu || 0 < dbgovst.sumWrite || 0 < dbgovst.sumRead || dbgovst.cause ≠ 0) &&
    dbgovst.ignored ≠ .ignoreMode

/-- What a call of `AddDbGovStatitrics` takes from outside: the clock, `get_cnt_threads`, the
orders of the two traversals, and whether `fopen` and `rename` succeed. -/
structure StatInput where
  newTm : ℚ
  cntThreads : Username → ℤ
  ordAdd : IterOrder
  ordPrint : IterOrder
  opened : Bool
  renamed : Bool

/-- `DbGovStatitrics` and `old_tm_stats`. `files` is a history of the records printed to the
files that were renamed; no code reads it. -/
structure Statistics where
  dbGovStatitrics : Option (HashTable DbgovStatitrics)
  oldTm : ℚ
  files : List (List DbgovStatitrics)

def Statistics.init : Statistics := ⟨none, 0, []⟩

/-- The limits, the mode and the restricts that `dbstat_add_to_table` writes in both branches. -/
def DbgovStatitrics.atPeriodEnd (sl : StatsCfg) (restricts : Option StatisticsRestrictInfo)
    (r : DbgovStatitrics) : DbgovStatitrics :=
  { r with
    numberOfRestricts := (restricts.map StatisticsRestrictInfo.numberOfRestricts).getD 0
    cause := (restricts.map StatisticsRestrictInfo.causeOfRestricts).getD 0
    limitCpuOnPeriodEnd := if sl.cpu.current < 0 then 0 else sl.cpu.current
    limitReadOnPeriodEnd := if sl.read.current < 0 then 0 else sl.read.current
    limitWriteOnPeriodEnd := if sl.write.current < 0 then 0 else sl.write.current
    ignored := sl.mode }

/-- The record of `dbstat_add_to_table` for an account with or without one. -/
def dbstatRecord (cfg : GovernorConfig) (cntThreads : Username → ℤ) (g : Globals) (ac : Account)
    (old : Option DbgovStatitrics) : DbgovStatitrics :=
  let sl := configGetAccountLimit cfg ac.id
  let restricts := g.dbGovNumberOfRestricts.bind fun t => t.lookup ac.id
  DbgovStatitrics.atPeriodEnd sl restricts
    (match old with
    | none =>
        { username := ac.id
          maxSimultaneousRequests := cntThreads ac.id
          sumCpu := ac.current.cpu
          sumWrite := ac.current.write
          sumRead := ac.current.read
          numberOfIterations := 1
          maxCpu := ac.current.cpu
          maxWrite := ac.current.write
          maxRead := ac.current.read
          numberOfRestricts := 0
          limitCpuOnPeriodEnd := 0
          limitReadOnPeriodEnd := 0
          limitWriteOnPeriodEnd := 0
          cause := 0
          ignored := sl.mode }
    | some r =>
        { r with
          maxSimultaneousRequests := r.maxSimultaneousRequests + cntThreads ac.id
          sumCpu := Rounding.fl (r.sumCpu + ac.current.cpu)
          sumWrite := r.sumWrite + ac.current.write
          sumRead := r.sumRead + ac.current.read
          numberOfIterations := r.numberOfIterations + 1
          maxCpu := if ac.current.cpu > r.maxCpu then ac.current.cpu else r.maxCpu
          maxWrite := if ac.current.write > r.maxWrite then ac.current.write else r.maxWrite
          maxRead := if ac.current.read > r.maxRead then ac.current.read else r.maxRead })

/-- `dbstat_add_to_table`. -/
def dbstatAddToTable (cntThreads : Username → ℤ) (w : World) (t : HashTable DbgovStatitrics)
    (key : Username) : HashTable DbgovStatitrics :=
  match w.accounts.lookup key with
  | none => t
  | some ac => t.insert ac.id (dbstatRecord w.cfg cntThreads w.globals ac (t.lookup ac.id))

/-- The records that `dbstat_print_table` prints. -/
def printedRecords (ord : IterOrder) (t : HashTable DbgovStatitrics) : List DbgovStatitrics :=
  ((ord.order t.keys).filterMap t.lookup).filter dbgovWasUserActivity

/-- `WriteDbGovStatitrics`: its result, and the history with the file if it was renamed. A file
without a line is unlinked. -/
def writeDbGovStatitrics (i : StatInput) (st : Statistics) : Bool × Statistics :=
  let printed := printedRecords i.ordPrint (st.dbGovStatitrics.getD ∅)
  if i.opened && !printed.isEmpty && i.renamed then
    (true, { st with files := st.files ++ [printed] })
  else (false, st)

/-- The start of the period as `AddDbGovStatitrics` takes it. -/
def startTm (oldTm newTm : ℚ) : ℚ := if oldTm = 0 then newTm else oldTm

/-- The first part of `AddDbGovStatitrics`, in which the figures are added. -/
def addStatitrics (i : StatInput) (w : World) (st : Statistics) : Statistics :=
  let st := { st with oldTm := startTm st.oldTm i.newTm }
  if i.newTm - st.oldTm ≥ 1 then
    { st with dbGovStatitrics := some ((i.ordAdd.order w.accounts.keys).foldl
        (dbstatAddToTable i.cntThreads w) (st.dbGovStatitrics.getD ∅)) }
  else st

/-- `AddDbGovStatitrics` on the records and the period, with the result of
`WriteDbGovStatitrics`; `addDbGovStatitrics` is what it does to the numbers of restricts. -/
def addDbGovStatitricsRecords (i : StatInput) (w : World) (st : Statistics) :
    Bool × Statistics :=
  let st := addStatitrics i w st
  if i.newTm - st.oldTm ≥ 60 then
    let r := writeDbGovStatitrics i st
    if r.1 then
      (true, { r.2 with
        dbGovStatitrics := r.2.dbGovStatitrics.map fun _ => ∅
        oldTm := i.newTm })
    else r
  else (false, st)

/-- `proceed_accounts` with the records. -/
def proceedAccountsStats (t : TickInput) (i : StatInput) (w : World) (st : Statistics) :
    World × Statistics :=
  let w := analyzeAccounts t (gatherStats t w)
  if w.cfg.statisticMode then
    let r := addDbGovStatitricsRecords i w st
    ({ w with globals := addDbGovStatitrics r.1 w.globals }, r.2)
  else (w, st)

end DbGovernor
