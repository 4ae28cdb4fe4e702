import Verse.Queues.HashArray

/-!
# The queue of outgoing commands

`v_out_queue.c`.  A queued command stands in the list of its priority and in the
hashed list of its id.  Commands of one id that stand next to each other in a
list form a group, whose counter, shared address size and length they point to.

The list entries (`VOutQueueCommand`), the groups and the buckets live in heaps
of their own, `none` being memory that was freed; a function returns `none` where
the source fails an assertion or uses freed memory.  The real numbers that weigh
the priorities (`r_prio` and their sums) do not matter to the lists; they stand in
`OutQueueWeights`.
-/

namespace Verse

open Lib

/-- `VRS_DEFAULT_PRIORITY`. -/
def vrsDefaultPriority : ℕ := 128

/-- `OUT_QUEUE_DEFAULT_MAX_SIZE`. -/
def outQueueDefaultMaxSize : ℕ := 1048576

/-- The three numbers a group shares; they are allocated and freed together. -/
structure OutGroup where
  counter : ℕ
  share : ℕ
  len : ℕ
  deriving DecidableEq, Repr

/-- `VOutQueueCommand` without its links.  `group` stands for the pointers
`counter`, `share` and `len`. -/
structure VOutQueueCommand where
  vbucket : ℕ
  id : ℕ
  prio : ℕ
  group : Option ℕ
  deriving DecidableEq, Repr

/-- `VOutQueue`: for each priority its list of commands with their count and size,
the hashed lists, the total count and size, and the memory. -/
structure VOutQueue where
  queues : ℕ → List ℕ
  prioCount : ℕ → ℕ
  prioSize : ℕ → ℕ
  table : CmdTable
  size : ℕ
  maxSize : ℕ
  count : ℕ
  maxPrio : ℕ
  minPrio : ℕ
  qheap : ℕ → Option VOutQueueCommand
  next : ℕ
  groups : ℕ → Option OutGroup
  nextGroup : ℕ

/-- `v_out_queue_create`. -/
def vOutQueueCreate : VOutQueue where
  queues _ := []
  prioCount _ := 0
  prioSize _ := 0
  table := .init
  size := 0
  maxSize := outQueueDefaultMaxSize
  count := 0
  maxPrio := vrsDefaultPriority
  minPrio := vrsDefaultPriority
  qheap _ := none
  next := 0
  groups _ := none
  nextGroup := 0

/-! ## Groups -/

/-- The list entry at the end where a command is added. -/
def VOutQueue.border (oq : VOutQueue) (head : Bool) (prio : ℕ) : Option ℕ :=
  if head then (oq.queues prio).head? else (oq.queues prio).getLast?

/-- The group after one more command joined it at `border`. -/
def OutGroup.join (g : OutGroup) (border cmd : GenericCmd) : OutGroup :=
  let share := if 0 < g.share then vCmdCmpAddr border cmd g.share else g.share
  let counter := (g.counter + 1) % 2 ^ 16
  ⟨counter, share, vCmdsLen cmd counter share g.len⟩

/-- The group of a command that was alone up to now. -/
def OutGroup.single (border cmd : GenericCmd) : OutGroup :=
  let share := vCmdCmpAddr border cmd 0xFF
  ⟨1, share, vCmdsLen border 1 share 0⟩

/-- The first half of `_v_out_queue_command_add`: the group the new list entry
gets.  In an empty list the pointers of the entry stay as they are (`old`). -/
def joinGroup (oq : VOutQueue) (head : Bool) (prio : ℕ) (shareAddr : Bool) (id : ℕ)
    (old : Option ℕ) (cmd : GenericCmd) : Option (VOutQueue × Option ℕ) :=
  match oq.border head prio with
  | none => some (oq, old)
  | some ba =>
      match oq.qheap ba with
      | none => none
      | some border =>
          if shareAddr && border.id = id then
            match oq.table.heap border.vbucket with
            | none => none
            | some b =>
                match border.group with
                | none =>
                    let single := OutGroup.single b.data.cmd cmd
                    -- the share was just computed and is not computed again
                    let counter := (single.counter + 1) % 2 ^ 16
                    let joined : OutGroup :=
                      ⟨counter, single.share, vCmdsLen cmd counter single.share single.len⟩
                    some ({ oq with
                      groups := Function.update oq.groups oq.nextGroup (some joined)
                      nextGroup := oq.nextGroup + 1
                      qheap := Function.update oq.qheap ba
                        (some { border with group := some oq.nextGroup }) }, some oq.nextGroup)
                | some g =>
                    match oq.groups g with
                    | none => none
                    | some group =>
                        some ({ oq with
                          groups := Function.update oq.groups g (some (group.join b.data.cmd cmd)) },
                          some g)
          else some (oq, none)

/-- `_v_out_queue_command_add`: the entry `queueCmd` at address `qa` is put to the
head or the tail of the list of priority `prio`. -/
def vOutQueueCommandAdd (oq : VOutQueue) (head : Bool) (prio : ℕ) (shareAddr : Bool) (qa : ℕ)
    (queueCmd : VOutQueueCommand) (cmd : GenericCmd) : Option VOutQueue :=
  match joinGroup oq head prio shareAddr queueCmd.id queueCmd.group cmd with
  | none => none
  | some (oq, group) =>
      some { oq with
        qheap := Function.update oq.qheap qa (some { queueCmd with group := group })
        queues := Function.update oq.queues prio
          (if head then qa :: oq.queues prio else oq.queues prio ++ [qa]) }

/-- `counter -= 1` on a `uint16`. -/
def dec16 (n : ℕ) : ℕ := (n + 2 ^ 16 - 1) % 2 ^ 16

/-- One command fewer in a group; the memory of an empty group is freed. -/
def dropGroup (oq : VOutQueue) (group : Option ℕ) : Option VOutQueue :=
  match group with
  | none => some oq
  | some g =>
      match oq.groups g with
      | none => none
      | some grp =>
          some { oq with
            groups := Function.update oq.groups g
              (if dec16 grp.counter = 0 then none
                else some { grp with counter := dec16 grp.counter }) }

/-! ## Pushing -/

/-- The bucket of a list entry is made, and the counts are brought up to date:
the common end of `_v_out_queue_command_create` and of a change of priority. -/
def attachBucket (oq : VOutQueue) (q : VCommandQueue) (prio qa : ℕ) (cmd : CmdPtr) :
    Option VOutQueue :=
  match oq.qheap qa, vHashArrayAddItem oq.table q cmd with
  | some queueCmd, some (table, a) =>
      some { oq with
        table := table.write a ⟨cmd, some qa⟩
        qheap := Function.update oq.qheap qa (some { queueCmd with vbucket := a })
        prioCount := Function.update oq.prioCount prio (inc32 (oq.prioCount prio))
        prioSize := Function.update oq.prioSize prio (add32 (oq.prioSize prio) q.itemSize)
        maxPrio := if oq.maxPrio < prio then prio else oq.maxPrio
        minPrio := if oq.maxPrio < prio then oq.minPrio
          else if prio < oq.minPrio then prio else oq.minPrio }
  | _, _ => none

/-- `_v_out_queue_command_create`; `some none` is a queue without free space. -/
def vOutQueueCommandCreate (oq : VOutQueue) (q : VCommandQueue) (head limits : Bool) (prio : ℕ)
    (cmd : CmdPtr) : Option (Option VOutQueue) :=
  if limits && oq.maxSize < add32 oq.size q.itemSize then some none
  else
    let qa := oq.next
    match vOutQueueCommandAdd { oq with next := oq.next + 1 } head prio (!q.notShareAddr) qa
        ⟨0, cmd.id, prio, none⟩ cmd.cmd with
    | none => none
    | some oq =>
        match attachBucket oq q prio qa cmd with
        | none => none
        | some oq =>
            some (some { oq with count := inc32 oq.count, size := add32 oq.size q.itemSize })

/-- The part of `_v_out_queue_push` that moves the entry `queueCmd` at `qa`, whose
bucket holds `old`, to another priority and gives it the command `cmd`. -/
def changePriority (oq : VOutQueue) (q : VCommandQueue) (head : Bool) (prio qa : ℕ)
    (queueCmd : VOutQueueCommand) (old cmd : CmdPtr) : Option VOutQueue :=
  match vHashArrayRemoveItem oq.table q old.cmd with
  | none => none
  | some (table, _) =>
      let oq := { oq with
        table := table
        queues := Function.update oq.queues queueCmd.prio ((oq.queues queueCmd.prio).erase qa)
        prioCount := Function.update oq.prioCount queueCmd.prio (dec32 (oq.prioCount queueCmd.prio))
        prioSize := Function.update oq.prioSize queueCmd.prio
          (sub32 (oq.prioSize queueCmd.prio) q.itemSize) }
      match dropGroup oq queueCmd.group with
      | none => none
      | some oq =>
          -- the pointers of the entry are cleared only when the group was freed
          let group := queueCmd.group.bind fun g => if oq.groups g = none then none else some g
          match vOutQueueCommandAdd oq head prio (!q.notShareAddr) qa
              ⟨queueCmd.vbucket, cmd.id, prio, group⟩ cmd.cmd with
          | none => none
          | some oq => attachBucket oq q prio qa cmd

/-- `_v_out_queue_push`.  Besides the queue and the return value the result says
which command, if any, was replaced by `cmd`. -/
def vOutQueuePush (oq : VOutQueue) (head limits : Bool) (prio : ℕ) (cmd : CmdPtr) :
    Option (VOutQueue × Bool × Option CmdPtr) :=
  match vCmdQueueCreate cmd.id true with
  | none => none
  | some q =>
      let found := if q.removeHashDups then vHashArrayFindItem oq.table q cmd.cmd else some none
      match found with
      | none => none
      | some none =>
          match vOutQueueCommandCreate oq q head limits prio cmd with
          | none => none
          | some none => some (oq, false, none)
          | some (some oq) => some (oq, true, none)
      | some (some a) =>
          match oq.table.heap a with
          | none => none
          | some b =>
              match b.ptr with
              | none => none
              | some qa =>
                  match oq.qheap qa with
                  | none => none
                  | some queueCmd =>
                      if queueCmd.prio ≠ prio then
                        (changePriority oq q head prio qa queueCmd b.data cmd).map
                          fun oq => (oq, true, some b.data)
                      else
                        some ({ oq with table := oq.table.write a { b with data := cmd } }, true,
                          some b.data)

/-- `v_out_queue_push_head`: a command that may be obsolete is not put back when
there is a newer one. -/
def vOutQueuePushHead (oq : VOutQueue) (prio : ℕ) (cmd : CmdPtr) :
    Option (VOutQueue × Bool × Option CmdPtr) :=
  match vCmdQueueCreate cmd.id true with
  | none => none
  | some q =>
      if q.removeHashDups then
        match vHashArrayFindItem oq.table q cmd.cmd with
        | none => none
        | some (some _) => some (oq, false, none)
        | some none => vOutQueuePush oq true false prio cmd
      else vOutQueuePush oq true false prio cmd

/-- `v_out_queue_push_tail`. -/
def vOutQueuePushTail (oq : VOutQueue) (limits : Bool) (prio : ℕ) (cmd : CmdPtr) :
    Option (VOutQueue × Bool × Option CmdPtr) :=
  vOutQueuePush oq false limits prio cmd

/-! ## Popping -/

/-- What `v_out_queue_pop` decides before it removes anything: whether the command
can be popped, and the values of `count`, `share` and `len`. -/
structure PopPlan where
  canPop : Bool
  count : ℕ
  share : ℕ
  len : ℕ
  deriving DecidableEq, Repr

/-- The first half of `v_out_queue_pop`; every caller passes all three pointers.
`len` is the size of the buffer that is left. -/
def popPlan (cmd : GenericCmd) (group : Option OutGroup) (len : ℕ) : PopPlan :=
  match group with
  | some g =>
      if len ≠ 0 ∧ len < g.len then
        let count := vCmdCount cmd len g.share
        let count := if g.counter < count then g.counter else count
        ⟨count ≠ 0, count, g.share, vCmdsLen cmd count g.share 0⟩
      else ⟨true, g.counter, g.share, g.len⟩
  | none => ⟨vCmdSize cmd ≤ len, 0, 0, 0⟩

/-- The highest (lowest) priority that is in use after `prio` was emptied. -/
def VOutQueue.updatePrios (oq : VOutQueue) (prio : ℕ) : VOutQueue :=
  if oq.prioCount prio ≠ 0 then oq
  else if oq.maxPrio = prio ∧ oq.minPrio ≠ prio then
    match (List.range' oq.minPrio (prio + 1 - oq.minPrio)).reverse.find? (oq.prioCount · ≠ 0) with
    | some i => { oq with maxPrio := i }
    | none => oq
  else if oq.minPrio = prio ∧ oq.maxPrio ≠ prio then
    match (List.range' prio (oq.maxPrio + 1 - prio)).find? (oq.prioCount · ≠ 0) with
    | some i => { oq with minPrio := i }
    | none => oq
  else if oq.minPrio = prio ∧ oq.maxPrio = prio then
    { oq with minPrio := vrsDefaultPriority, maxPrio := vrsDefaultPriority }
  else oq

/-- The group a list entry points to. -/
def VOutQueue.groupOf (oq : VOutQueue) (queueCmd : VOutQueueCommand) : Option (Option OutGroup) :=
  match queueCmd.group with
  | none => some none
  | some g => (oq.groups g).map some

/-- The second half of `v_out_queue_pop`: the entry `queueCmd` at `qa`, the head of
the list, goes, and with it the first bucket that has the key of its command. -/
def popHead (oq : VOutQueue) (prio qa : ℕ) (rest : List ℕ) (queueCmd : VOutQueueCommand)
    (cmd : CmdPtr) : Option VOutQueue :=
  match vCmdQueueCreate cmd.id true with
  | none => none
  | some q =>
      match vHashArrayRemoveItem oq.table q cmd.cmd with
      | none => none
      | some (table, _) =>
          match dropGroup { oq with
              table := table
              queues := Function.update oq.queues prio rest
              count := dec32 oq.count
              size := sub32 oq.size q.itemSize
              prioCount := Function.update oq.prioCount prio (dec32 (oq.prioCount prio))
              prioSize := Function.update oq.prioSize prio (sub32 (oq.prioSize prio) q.itemSize) }
              queueCmd.group with
          | none => none
          | some oq =>
              some { oq.updatePrios prio with qheap := Function.update oq.qheap qa none }

/-- `v_out_queue_pop`: the queue, the command (`none` is `NULL`) and the plan. -/
def vOutQueuePop (oq : VOutQueue) (prio len : ℕ) : Option (VOutQueue × Option (CmdPtr × PopPlan)) :=
  match oq.queues prio with
  | [] => some (oq, none)
  | qa :: rest =>
      match oq.qheap qa with
      | none => none
      | some queueCmd =>
          match oq.table.heap queueCmd.vbucket, oq.groupOf queueCmd with
          | some b, some group =>
              let plan := popPlan b.data.cmd group len
              if plan.canPop then
                (popHead oq prio qa rest queueCmd b.data).map fun oq => (oq, some (b.data, plan))
              else some (oq, none)
          | _, _ => none

end Verse
