import FuelCore.Lib.Range

/-! # The sync service's state

`services/sync/src/state.rs`: the sync service keeps one status, built by `State::new` from
the committed and observed heights and changed by the block importer through `commit`,
`observe` and `failed_to_process`. Heights are `u32`s; a range is a `RangeInclusive<u32>`.
-/

namespace FuelCore.Sync

inductive Status
  | uninitialized
  | processing (range : RangeInclusive)
  | committed (height : UInt32)
  deriving DecidableEq, Repr

structure State where
  status : Status
  deriving DecidableEq, Repr

namespace State

def new (committed observed : Option UInt32) : State where
  status :=
    match committed, observed with
    | some committed, some observed =>
        match committed.checkedAdd 1 with
        | none => .committed committed
        | some next =>
            let range : RangeInclusive := ⟨next, observed⟩
            if range.isEmpty then .committed committed else .processing range
    | some committed, none => .committed committed
    | none, some observed => .processing ⟨0, observed⟩
    | none, none => .uninitialized

def processRange (state : State) : Option RangeInclusive :=
  match state.status with
  | .processing range => some range
  | _ => none

def applyStatus (state : State) : Option Status → State
  | some status => ⟨status⟩
  | none => state

def commit (state : State) (height : UInt32) : State :=
  state.applyStatus <|
    match state.status with
    | .processing range =>
        -- a commit below the range is the importer lagging behind
        if height < range.start then none
        -- `height.cmp(range.end())`: `Less`, then `Equal | Greater`
        else if height < range.stop then
          some (.processing ⟨height.saturatingAdd 1, range.stop⟩)
        else some (.committed height)
    | .uninitialized => some (.committed height)
    | .committed existing => if existing < height then some (.committed height) else none

/-- `observe`, with the returned flag: whether the status changed. -/
def observe (state : State) (height : UInt32) : State × Bool :=
  let newStatus : Option Status :=
    match state.status with
    | .uninitialized => some (.processing ⟨0, height⟩)
    | .processing range =>
        if range.stop < height then some (.processing ⟨range.start, height⟩) else none
    | .committed committed =>
        (committed.checkedAdd 1).bind fun next =>
          let r : RangeInclusive := ⟨next, height⟩
          if !r.isEmpty then some (.processing r) else none
  (state.applyStatus newStatus, newStatus.isSome)

def failedToProcess (state : State) (range : RangeInclusive) : State :=
  state.applyStatus <|
    if range.isEmpty then none
    else
      match state.status with
      | .uninitialized | .committed _ => none
      | .processing processing =>
          -- back to just before the processing range: the last commit, or nothing
          let revert : Status := (processing.start.checkedSub 1).elim .uninitialized .committed
          if range.contains processing.start then some revert
          else if range.contains processing.stop || processing.contains range.start then
            some ((range.start.checkedSub 1).elim .uninitialized fun prev =>
              .processing ⟨processing.start, prev⟩)
          else if processing.contains range.stop then some revert
          else none

end State

/-- The calls the importer makes on the state. -/
inductive Call
  | commit (height : UInt32)
  | observe (height : UInt32)
  | failedToProcess (range : RangeInclusive)
  deriving DecidableEq, Repr

def Call.run (state : State) : Call → State
  | .commit height => state.commit height
  | .observe height => (state.observe height).1
  | .failedToProcess range => state.failedToProcess range

def runCalls (state : State) (calls : List Call) : State :=
  calls.foldl Call.run state

@[simp]
theorem runCalls_nil (state : State) : runCalls state [] = state := rfl

@[simp]
theorem runCalls_append (state : State) (calls more : List Call) :
    runCalls state (calls ++ more) = runCalls (runCalls state calls) more :=
  List.foldl_append

end FuelCore.Sync
