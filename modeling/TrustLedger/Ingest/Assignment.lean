import TrustLedger.LedgerCore.Timeliness
import TrustLedger.Ingest.Durability
import TrustLedger.Ingest.Watermark

/-! Timestamps the engine chooses itself. Conversion runs over the whole micro-batch before the
ledger sees any of it, so the watermark has to stay ahead of every ledger the second pass can reach.
-/

namespace TrustLedger.Ingest

open Foundation LedgerCore WriteAheadLog

-- Stamps

/-- The operations of a micro-batch that are converted, in order. An atomic batch is left at its
first operation that fails validation.
-/
def lookedAt (batch : List IngestCommand) : List TimedOp :=
  batch.flatMap fun command => upToInvalid command.ops

/-- The timestamp an operation gets under a watermark, assigned or its own. -/
def TimedOp.stamp (timed : TimedOp) (watermark : U64) : U64 :=
  (allocateTimestamp timed.op.timestamp timed.now watermark).1

/-- The timestamps operations get one after the other. -/
def stampsFrom : U64 → List TimedOp → List U64
  | _, [] => []
  | watermark, timed :: rest =>
      timed.stamp watermark :: stampsFrom (advance watermark timed) rest

theorem stamp_le_advance (timed : TimedOp) (watermark : U64)
    : timed.stamp watermark ≤ advance watermark timed := by
  unfold advance TimedOp.stamp allocateTimestamp
  split
  · exact le_rfl
  · exact le_max_right _ _

theorem foldl_advance_mem (ops : List TimedOp) (watermark : U64)
    : ops.foldl advance watermark ∈ watermark :: stampsFrom watermark ops := by
  induction ops generalizing watermark with
  | nil => exact List.mem_singleton_self _
  | cons timed rest ih =>
      have moved : advance watermark timed = watermark
          ∨ advance watermark timed = timed.stamp watermark := by
        unfold advance TimedOp.stamp allocateTimestamp
        split
        · exact .inr rfl
        · exact max_choice watermark timed.op.timestamp
      rcases List.mem_cons.mp (ih (advance watermark timed)) with last | later
      · rw [List.foldl_cons, last]
        rcases moved with same | same <;> simp [stampsFrom, same]
      · exact List.mem_cons_of_mem _ (List.mem_cons_of_mem _ later)

variable {ops : List TimedOp} {watermark next : U64} {timed : TimedOp} {built : List BatchOp}
  {command : IngestCommand} {responder : Responder} {convert : WatermarkM (List BatchOp)}
  {l : Ledger} {batch : List IngestCommand} {err : IngestError} {e : LedgerError} {io : AppendIo}
  {sender : Sender} {reply : Reply}

theorem le_foldl_advance_of_mem {stamp : U64}
    (member : stamp ∈ watermark :: stampsFrom watermark ops)
    : stamp ≤ ops.foldl advance watermark := by
  induction ops generalizing watermark with
  | nil => exact (List.mem_singleton.mp member).le
  | cons timed rest ih =>
      rcases List.mem_cons.mp member with rfl | rest'
      · exact le_foldl_advance (timed :: rest) stamp
      · rcases List.mem_cons.mp rest' with rfl | later
        · exact le_trans (stamp_le_advance timed watermark) (le_foldl_advance rest _)
        · exact ih (List.mem_cons_of_mem _ later)

/-- An assigned timestamp is above the watermark, unless there is no higher one. -/
theorem lt_stamp (asked : timed.op.timestamp = 0) (room : watermark.val ≠ 2 ^ 64 - 1)
    : watermark < timed.stamp watermark := by
  have bound := watermark.isLt
  have above : watermark < nextStamp watermark := by
    rw [Fin.lt_def, nextStamp_val]
    omega
  rw [TimedOp.stamp, asked, allocateTimestamp_zero]
  exact lt_of_lt_of_le above (le_max_right _ _)

/-- It is above the watermark's origin and every timestamp since. -/
theorem lt_stamp_of_prior (asked : timed.op.timestamp = 0)
    (room : ∀ stamp ∈ watermark :: stampsFrom watermark ops, stamp.val ≠ 2 ^ 64 - 1)
    : ∀ stamp ∈ watermark :: stampsFrom watermark ops,
        stamp < timed.stamp (ops.foldl advance watermark) :=
  fun _ member => lt_of_le_of_lt (le_foldl_advance_of_mem member)
    (lt_stamp asked (room _ (foldl_advance_mem ops watermark)))

-- Conversions

/-- `built` are the operations converted one after the other, each at the timestamp it gets under
the watermark left by those before it.
-/
inductive Converts : U64 → List TimedOp → List BatchOp → Prop where
  | nil {watermark : U64} : Converts watermark [] []
  | cons {watermark : U64} {timed : TimedOp} {op : BatchOp} {ops : List TimedOp}
    {built : List BatchOp} (first : timed.op.build (timed.stamp watermark) = .ok op)
    (rest : Converts (advance watermark timed) ops built)
    : Converts watermark (timed :: ops) (op :: built)

theorem TimedOp.build_of_intoBatchOp {op : BatchOp}
    (converted : timed.intoBatchOp watermark = .ok op next)
    : timed.op.build (timed.stamp watermark) = .ok op ∧ next = advance watermark timed := by
  unfold TimedOp.intoBatchOp at converted
  simp only at converted
  split at converted
  · rename_i built
    cases converted
    exact ⟨built, rfl⟩
  · cases converted

theorem converts_intoBatchOps (converted : intoBatchOps ops watermark = .ok built next)
    : Converts watermark ops built := by
  induction ops generalizing watermark built next with
  | nil =>
      cases converted
      exact .nil
  | cons timed rest ih =>
      obtain ⟨op, mid, first, later⟩ := bind_run_ok.mp converted
      obtain ⟨others, mid', second, last⟩ := bind_run_ok.mp later
      cases last
      obtain ⟨build, rfl⟩ := TimedOp.build_of_intoBatchOp first
      exact .cons build (ih second)

theorem IngestCommand.converts (mutation : command.mutation? = some (responder, convert))
    (converted : valueAfter (convert watermark) = .ok built)
    : Converts watermark command.ops built := by
  cases ran : convert watermark with
  | error err next =>
      rw [ran] at converted
      cases converted
  | ok ops next =>
      rw [ran] at converted
      cases converted
      cases command with
      | mutate timed respondTo =>
          cases mutation
          obtain ⟨op, mid, first, later⟩ := bind_run_ok.mp ran
          cases later
          exact .cons (TimedOp.build_of_intoBatchOp first).1 .nil
      | applyBatch ops respondTo =>
          cases mutation
          exact converts_intoBatchOps ran
      | getAccount => cases mutation
      | getTransfer => cases mutation

namespace Converts

variable {watermark : U64} {ops : List TimedOp} {built done later : List BatchOp} {op : BatchOp}

/-- Each converted operation comes from one of the operations, in the same place. -/
theorem split (converts : Converts watermark ops (done ++ op :: later))
    : ∃ before timed after,
        ops = before ++ timed :: after
        ∧ Converts watermark before done
        ∧ stampOf op = timed.stamp (before.foldl advance watermark) := by
  induction done generalizing watermark ops with
  | nil =>
      cases converts with
      | @cons _ timed _ rest _ first _ =>
          exact ⟨[], timed, rest, rfl, .nil, IngestOp.stampOf_build first⟩
  | cons head rest ih =>
      cases converts with
      | @cons _ timed _ _ _ first behind =>
          obtain ⟨before, hit, after, rfl, converted, stamped⟩ := ih behind
          exact ⟨timed :: before, hit, after, rfl, .cons first converted, stamped⟩

theorem length (converts : Converts watermark ops built) : built.length = ops.length := by
  induction converts with
  | nil => rfl
  | cons _ _ ih => rw [List.length_cons, List.length_cons, ih]

theorem stamps_le (converts : Converts watermark ops built)
    : ∀ op ∈ built, stampOf op ≤ ops.foldl advance watermark := by
  induction converts with
  | nil => simp
  | @cons watermark timed op ops built first rest ih =>
      intro other member
      rcases List.mem_cons.mp member with rfl | there
      · rw [IngestOp.stampOf_build first]
        exact le_trans (stamp_le_advance timed watermark) (le_foldl_advance ops _)
      · exact ih other there

end Converts

/-- What is tried before an operation never takes the ledger past the watermark the operation is
stamped under.
-/
theorem reached_le_watermark {earlier : List IngestCommand} {before : List TimedOp}
    {done : List BatchOp} {reached : Ledger}
    (converts : Converts (convertAll earlier l.lastTimestamp).2 before done)
    (applied : Ledger.applyOps done (decisions earlier l).2 = some reached)
    : reached.lastTimestamp ≤ (lookedAt earlier ++ before).foldl advance l.lastTimestamp := by
  have start : (convertAll earlier l.lastTimestamp).2
      = (lookedAt earlier).foldl advance l.lastTimestamp :=
    convertAll_advance earlier l.lastTimestamp
  have ahead : (decisions earlier l).2.lastTimestamp ≤ (convertAll earlier l.lastTimestamp).2 :=
    lastTimestamp_le_watermark le_rfl
  rw [List.foldl_append, ← start]
  exact applyOps_lastTimestamp (le_trans ahead (le_foldl_advance before _)) converts.stamps_le
    applied

-- Verdicts

/-- The engine builds `op` from `timed` in a micro-batch: `earlier` are the commands before its own,
`before` the operations before it in its own command, and `done` what these were converted to.
-/
inductive Conversion (l : Ledger) (batch earlier : List IngestCommand) (before : List TimedOp)
    (timed : TimedOp) (done : List BatchOp) (op : BatchOp)
    : Prop where
  | intro {later : List IngestCommand} {command : IngestCommand} {responder : Responder}
    {convert : WatermarkM (List BatchOp)} {after : List TimedOp} {rest : List BatchOp}
    (place : batch = earlier ++ command :: later)
    (mutation : command.mutation? = some (responder, convert))
    (converted
      : valueAfter (convert (convertAll earlier l.lastTimestamp).2) = .ok (done ++ op :: rest))
    (submitted : command.ops = before ++ timed :: after)
    (aligned : before.length = done.length)

namespace Conversion

variable {l reached : Ledger} {batch earlier : List IngestCommand} {before : List TimedOp}
  {timed : TimedOp} {done : List BatchOp} {op : BatchOp}

/-- An operation is built under the watermark that everything looked at before it has left. -/
theorem stamped (conversion : Conversion l batch earlier before timed done op)
    : Converts (convertAll earlier l.lastTimestamp).2 before done
      ∧ stampOf op = timed.stamp ((lookedAt earlier ++ before).foldl advance l.lastTimestamp) := by
  obtain ⟨place, mutation, converted, submitted, aligned⟩ := conversion
  obtain ⟨before, hit, after, split, converts, stamped⟩ :=
    (IngestCommand.converts mutation converted).split
  rw [submitted] at split
  obtain ⟨rfl, same⟩ := List.append_inj split (aligned.trans converts.length)
  obtain ⟨rfl, -⟩ := List.cons.inj same
  refine ⟨converts, ?_⟩
  rw [stamped, List.foldl_append, lookedAt, ← convertAll_advance]

/-- An operation stamped by the engine is not behind the ledger it is tried on. -/
theorem timely (conversion : Conversion l batch earlier before timed done op)
    (asked : timed.op.timestamp = 0)
    (applied : Ledger.applyOps done (decisions earlier l).2 = some reached)
    : reached.lastTimestamp ≤ stampOf op := by
  obtain ⟨converts, stamped⟩ := conversion.stamped
  rw [stamped, TimedOp.stamp, asked, allocateTimestamp_zero]
  exact (reached_le_watermark converts applied).trans
    ((le_nextStamp _).trans (le_max_right _ _))

end Conversion

/-- Why a command of a micro-batch is refused: its conversion failed, or the ledger it came to
refused it.
-/
theorem mem_decisions_error (member : (responder, .error err) ∈ (decisions batch l).1)
    : ∃ earlier command later convert,
        batch = earlier ++ command :: later
        ∧ command.mutation? = some (responder, convert)
        ∧ (valueAfter (convert (convertAll earlier l.lastTimestamp).2) = .error err
          ∨ ∃ ops e, valueAfter (convert (convertAll earlier l.lastTimestamp).2) = .ok ops
            ∧ err = .ledger e
            ∧ Ledger.opLog.attempt ops (decisions earlier l).2 = .error e) := by
  induction batch using List.reverseRecOn with
  | nil => cases member
  | append_singleton earlier command ih =>
      rw [decisions_append] at member
      rcases List.mem_append.mp member with before | here
      · obtain ⟨first, other, later, convert, rfl, found⟩ := ih before
        exact ⟨first, other, later ++ [command], convert, by simp, found⟩
      · cases mutation : command.mutation? with
        | none => simp [convertAll, mutation, decideAll] at here
        | some pair =>
            obtain ⟨responder', convert⟩ := pair
            simp only [convertAll, mutation] at here
            cases value : valueAfter (convert (convertAll earlier l.lastTimestamp).2) with
            | error err' =>
                simp only [value, decideAll, List.mem_singleton, Prod.mk.injEq,
                  Except.error.injEq] at here
                obtain ⟨rfl, rfl⟩ := here
                exact ⟨earlier, command, [], convert, rfl, mutation, .inl value⟩
            | ok ops =>
                simp only [value, decideAll] at here
                cases decided : Ledger.opLog.attempt ops (decisions earlier l).2 with
                | ok l' => simp [decided] at here
                | error e =>
                    simp only [decided, List.mem_singleton, Prod.mk.injEq,
                      Except.error.injEq] at here
                    obtain ⟨rfl, rfl⟩ := here
                    exact ⟨earlier, command, [], convert, rfl, mutation,
                      .inr ⟨ops, e, value, rfl, decided⟩⟩

/-- An error that is not the ledger's report of a late timestamp. -/
def IngestError.Timeless (err : IngestError) : Prop :=
  ∀ e, err = .ledger e → ¬e.IsLate

theorem IngestOp.timeless_build (op : IngestOp) (timestamp : U64)
    : LedgerCore.Timeless (op.build timestamp) := by
  have validated {id debit credit amount state pendingId}
      : LedgerCore.Timeless
          (Transfer.validated id debit credit amount state pendingId timestamp) := by
    refine .bind ?_ fun _ => .ok _
    exact .bind (.ensure nofun) fun _ => .ensure nofun
  cases op with
  | createTransfer => exact timeless_map validated _
  | createPending => exact timeless_map validated _
  | createAccount => exact .ok _
  | postPending => exact .ok _
  | voidPending => exact .ok _

theorem TimedOp.timeless_intoBatchOp (failed : timed.intoBatchOp watermark = .error err next)
    : err.Timeless := by
  unfold TimedOp.intoBatchOp at failed
  simp only at failed
  split at failed
  · cases failed
  · rename_i e refused
    cases failed
    intro e' same
    rw [← IngestError.ledger.inj same]
    exact timed.op.timeless_build _ e refused

theorem timeless_intoBatchOps (failed : intoBatchOps ops watermark = .error err next)
    : err.Timeless := by
  induction ops generalizing watermark with
  | nil => cases failed
  | cons timed rest ih =>
      rcases bind_run_error.mp failed with first | ⟨op, mid, -, later⟩
      · exact TimedOp.timeless_intoBatchOp first
      · rcases bind_run_error.mp later with second | ⟨built, mid', -, last⟩
        · exact ih second
        · cases last

theorem IngestCommand.timeless_convert (mutation : command.mutation? = some (responder, convert))
    (failed : convert watermark = .error err next)
    : err.Timeless := by
  cases command with
  | mutate timed respondTo =>
      cases mutation
      rcases bind_run_error.mp failed with first | ⟨op, mid, -, later⟩
      · exact TimedOp.timeless_intoBatchOp first
      · cases later
  | applyBatch ops respondTo =>
      cases mutation
      exact timeless_intoBatchOps failed
  | getAccount => cases mutation
  | getTransfer => cases mutation

/-- A late refusal names a timestamp the caller chose. -/
theorem late_verdict (member : (responder, .error (.ledger e)) ∈ (decisions batch l).1)
    (late : e.IsLate)
    : ∃ command ∈ batch,
        command.respondTo = responder.respondTo
        ∧ ∃ timed ∈ command.ops,
            timed.op.timestamp ≠ 0
            ∧ ∃ last, e = .timestampBehindPrior timed.op.timestamp last := by
  obtain ⟨earlier, command, later, convert, rfl, mutation, refused⟩ := mem_decisions_error member
  refine ⟨command, by simp, (IngestCommand.mutation?_sender mutation).symm, ?_⟩
  rcases refused with unconverted | ⟨ops, e', converted, same, failed⟩
  · cases ran : convert (convertAll earlier l.lastTimestamp).2 with
    | ok ops next =>
        rw [ran] at unconverted
        cases unconverted
    | error err next =>
        rw [ran] at unconverted
        cases unconverted
        exact absurd late (IngestCommand.timeless_convert mutation ran e rfl)
  · cases same
    obtain ⟨done, op, rest, reached, rfl, applied, behind, named⟩ := Ledger.attempt_late failed late
    obtain ⟨before, timed, after, split, converts, stamped⟩ :=
      (IngestCommand.converts mutation converted).split
    have conversion : Conversion l (earlier ++ command :: later) earlier before timed done op :=
      .intro rfl mutation converted split converts.length.symm
    have chosen : timed.op.timestamp ≠ 0 :=
      fun asked => absurd behind (not_lt.mpr (conversion.timely asked applied))
    refine ⟨timed, by rw [split]; simp, chosen, reached.lastTimestamp, ?_⟩
    rw [named, stamped, TimedOp.stamp, allocateTimestamp_requested chosen]

-- Replies

theorem timeless_lookup {α : Type} {x : Except LedgerError α} (timeless : LedgerCore.Timeless x)
    (failed : x.mapError .ledger = .error err)
    : err.Timeless := by
  cases x with
  | ok a => cases failed
  | error e =>
      cases failed
      intro e' same
      rw [← IngestError.ledger.inj same]
      exact timeless e rfl

theorem Responder.timeless_respondOk (answered : (responder.respondOk l).2.error? = some err)
    : err.Timeless := by
  have refused {result : Except IngestError MutationResult}
      (there : (Reply.mutation result).error? = some err)
      : result = .error err := by
    cases result with
    | ok _ => cases there
    | error _ =>
        cases there
        rfl
  rcases responder with ⟨id | id, respondTo⟩ | ⟨count, respondTo⟩
  · exact timeless_lookup (timeless_map (l.timeless_getAccount id) _) (refused answered)
  · exact timeless_lookup (timeless_map (l.timeless_getTransfer id) _) (refused answered)
  · cases answered

theorem QueryCommand.timeless_answer {query : QueryCommand}
    (answered : (query.answer l).2.error? = some err)
    : err.Timeless := by
  cases query with
  | getAccount id respondTo =>
      refine timeless_lookup (l.timeless_getAccount id) ?_
      cases looked : (l.getAccount id).mapError IngestError.ledger with
      | ok _ => simp [answer, looked, Reply.error?] at answered
      | error _ => simpa [answer, looked, Reply.error?] using answered
  | getTransfer id respondTo =>
      refine timeless_lookup (l.timeless_getTransfer id) ?_
      cases looked : (l.getTransfer id).mapError IngestError.ledger with
      | ok _ => simp [answer, looked, Reply.error?] at answered
      | error _ => simpa [answer, looked, Reply.error?] using answered

/-- Persisting reports no late timestamps: the accepted events are in order. -/
theorem timeless_persist {e : Engine}
    (sent : (sender, reply) ∈ (e.persist (successes (decisions batch e.ledger).1) io).replies)
    (answered : reply.error? = some err)
    : err.Timeless := by
  cases encoded : encodeAll (acceptedLists batch e.ledger) with
  | error codecErr =>
      rw [persist_unencoded encoded] at sent
      cases sent
  | ok payloads =>
      cases appended : Wal.appendBatch payloads io e.wal with
      | error walErr wal =>
          rw [persist_failed encoded appended] at sent
          obtain ⟨⟨responder, events⟩, -, same⟩ := List.mem_map.mp sent
          have error := respondErr_error (.wal walErr.text) responder
          rw [same, answered] at error
          rw [Option.some.inj error]
          exact nofun
      | ok range wal =>
          rw [persist_appended encoded appended] at sent
          obtain ⟨⟨responder, events⟩, -, same⟩ := List.mem_map.mp sent
          rw [show reply = (responder.respondOk _).2 from (congrArg Prod.snd same).symm] at answered
          exact Responder.timeless_respondOk answered

/-- A late refusal that is sent names a timestamp its receiver chose. -/
theorem late_reply {engine : Engine}
    (sent : (sender, reply) ∈ (engine.processBatch batch io).replies)
    (answered : reply.error? = some (.ledger e)) (late : e.IsLate)
    : ∃ command ∈ batch,
        command.respondTo = sender
        ∧ ∃ timed ∈ command.ops,
            timed.op.timestamp ≠ 0
            ∧ ∃ last, e = .timestampBehindPrior timed.op.timestamp last := by
  obtain ⟨refused, same, processed⟩ := processBatch_eq batch io engine
  rw [processed] at sent
  rcases List.mem_append.mp sent with mutations | queried
  · rcases List.mem_append.mp mutations with early | persisted
    · obtain ⟨⟨responder, err⟩, failed, reported⟩ := List.mem_map.mp (same.mem_iff.mp early)
      have error := respondErr_error err responder
      have receiver := respondErr_sender err responder
      change responder.respondErr err = _ at reported
      rw [reported] at error receiver
      obtain rfl : err = .ledger e := Option.some.inj (error.symm.trans answered)
      rw [show sender = responder.respondTo from receiver]
      exact late_verdict (mem_failures.mp failed) late
    · exact absurd late (timeless_persist persisted answered e rfl)
  · unfold queryAnswers at queried
    split at queried
    · obtain ⟨query, -, reported⟩ := List.mem_map.mp queried
      rw [show reply = (query.answer _).2 from (congrArg Prod.snd reported).symm] at answered
      exact absurd late (QueryCommand.timeless_answer answered e rfl)
    · cases queried

/-- What a micro-batch does for operations that leave their timestamp to the engine. -/
structure ChoosesAcceptably (engine : Engine) (batch : List IngestCommand) (io : AppendIo)
    : Prop where
  /-- The timestamp of the operation built is above the ledger's last one and above every timestamp
  assigned to or requested by an operation looked at before, unless one of these is the largest. -/
  above
    : ∀ {earlier before timed done op},
      Conversion engine.ledger batch earlier before timed done op → timed.op.timestamp = 0
      → let last := engine.ledger.lastTimestamp
        let prior := last :: stampsFrom last (lookedAt earlier ++ before)
        (∀ stamp ∈ prior, stamp.val ≠ 2 ^ 64 - 1) → ∀ stamp ∈ prior, stamp < stampOf op
  /-- So is a timestamp assigned where a later operation of the atomic batch fails validation. -/
  assigned
    : ∀ {before after timed}, lookedAt batch = before ++ timed :: after → timed.op.timestamp = 0
      → let prior := engine.ledger.lastTimestamp :: stampsFrom engine.ledger.lastTimestamp before
        (∀ stamp ∈ prior, stamp.val ≠ 2 ^ 64 - 1)
        → ∀ stamp ∈ prior,
          stamp < timed.stamp (before.foldl advance engine.ledger.lastTimestamp)
  /-- Every operation built has the timestamp counted for it above. -/
  built
    : ∀ {earlier before timed done op},
      Conversion engine.ledger batch earlier before timed done op
      → stampOf op
        = timed.stamp ((lookedAt earlier ++ before).foldl advance engine.ledger.lastTimestamp)
  /-- Where the ledger tries the operation, it does not refuse it as late. -/
  timely
    : ∀ {earlier before timed done op reached e l'},
      Conversion engine.ledger batch earlier before timed done op → timed.op.timestamp = 0
      → Ledger.applyOps done (decisions earlier engine.ledger).2 = some reached
      → Ledger.applyBatchOp op reached = .error e l' → ¬e.IsLate
  /-- A late refusal that is sent names a timestamp its receiver chose. -/
  replied
    : ∀ {sender reply e}, (sender, reply) ∈ (engine.processBatch batch io).replies
      → reply.error? = some (.ledger e) → e.IsLate
      → ∃ command ∈ batch,
          command.respondTo = sender
          ∧ ∃ timed ∈ command.ops,
              timed.op.timestamp ≠ 0
              ∧ ∃ last, e = .timestampBehindPrior timed.op.timestamp last

/-- Timestamps chosen by the engine are always acceptable, whatever the ledger, the micro-batch and
the clock readings are.
-/
theorem chosen_timestamps_acceptable (engine : Engine) (batch : List IngestCommand) (io : AppendIo)
    : ChoosesAcceptably engine batch io := by
  refine ⟨?_, fun _ asked => lt_stamp_of_prior asked, fun conversion => conversion.stamped.2, ?_,
    late_reply⟩
  · intro earlier before timed done op conversion asked last prior room stamp member
    rw [conversion.stamped.2]
    exact lt_stamp_of_prior asked room stamp member
  · intro earlier before timed done op reached e l' conversion asked applied failed late
    exact absurd ((Ledger.applyBatchOp_late failed).1.mp late)
      (not_lt.mpr (conversion.timely asked applied))

/-- An atomic batch whose first operation fails validation and whose second asks for a far
timestamp, and then an account whose timestamp the engine chooses.
-/
def hiddenTimestamp : List IngestCommand :=
  [.applyBatch
      [⟨.createTransfer ⟨1⟩ ⟨1⟩ ⟨1⟩ ⟨5⟩ 0, 5⟩, ⟨.createAccount ⟨2⟩ .asset {} ⟨2⟩ 5000, 0⟩] ⟨1⟩,
    .mutate ⟨.createAccount ⟨3⟩ .asset {} ⟨2⟩ 0, 6⟩ ⟨2⟩]

/-- The requested timestamp 5000 is never looked at: the account behind it is stamped 6. -/
theorem hidden_timestamp_not_exceeded
    : (convertAll hiddenTimestamp 0).1
        = [(.batch 2 ⟨1⟩, .error (.ledger (.debitCreditAccountSame ⟨1⟩))),
          (.single (.account ⟨3⟩) ⟨2⟩, .ok [.createAccount ⟨3⟩ .asset {} ⟨2⟩ 6])]
      ∧ (∃ timed ∈ (hiddenTimestamp.take 1).flatMap IngestCommand.ops, timed.op.timestamp = 5000)
      ∧ ¬(5000 : U64) < 6 := by
  refine ⟨by decide +kernel, ?_, by decide⟩
  exact ⟨⟨.createAccount ⟨2⟩ .asset {} ⟨2⟩ 5000, 0⟩, by decide, rfl⟩

end TrustLedger.Ingest
