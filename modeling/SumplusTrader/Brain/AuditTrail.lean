import SumplusTrader.Brain.Proposals

/-!
# The audit trail of the brain loop

This file proves what holds in every interleaving of messages to the chat with iterations of the
loop. The moves are those of a pause; here the ledger and the calls of the executor are
followed, whatever the operator says and whatever the brain proposes.

The overrides of the chat reach the risk section alone, so a call is always on the whitelist of the
base configuration (`calls_whitelisted`). The guardrail counts the ledger anew for every
proposal, which limits the trades of every hour and not only of the hours that begin with a
trade (`executed_in_window`). Nobody writes the value of the portfolio, so the drawdown that
the circuit breaker looks at is the same in all of a run (`drawdown_unmoved`). The ledger keeps what was
there, has the approval of every call before it, and no execution that was not called
(`calls_on_record`).
-/

namespace SumplusTrader

namespace Supervision

variable {setting : Setting} {start world last : BrainWorld} {event : Event} {history : List Note}

/-- The moves of those events that are accepted in a world. -/
def Moves (setting : Setting) (accepted : BrainWorld → Event → Prop) (world : BrainWorld)
    (notes : List Note) (next : BrainWorld) : Prop :=
  ∃ event, accepted world event ∧ step setting world event = some (next, notes)

def callOf : Note → Option (Decision × ℚ)
  | .execute decision amountUsd => some (decision, amountUsd)
  | .pause => none
  | .resume => none

/-- The calls of the executor in a history. -/
def callsOf (history : List Note) : List (Decision × ℚ) := history.filterMap callOf

theorem callsOf_append_step (history : List Note) (event : Event) (fx : BrainEffects) :
    callsOf (history ++ (marks event ++ executions fx)) = callsOf history ++ fx.calls := by
  have marked : callsOf (marks event) = [] := by
    cases event with
    | message outside text =>
        simp only [marks]
        split
        · rfl
        · split
          · rfl
          · rfl
    | iteration outside now => rfl
  have executed : callsOf (executions fx) = fx.calls := by
    rw [callsOf, executions, List.filterMap_map]
    exact List.filterMap_some
  rw [callsOf, List.filterMap_append, List.filterMap_append, ← callsOf, ← callsOf, ← callsOf, marked,
    executed, List.nil_append]

/-- A property of the calls so far and of the world that every event keeps. -/
theorem run_invariant {accepted : BrainWorld → Event → Prop}
    (inv : List (Decision × ℚ) → BrainWorld → Prop) (initial : inv [] start)
    (kept : ∀ calls world event, accepted world event → inv calls world →
      inv (calls ++ (effects setting world event).calls) (effects setting world event).world)
    (run : Run (Moves setting accepted) start history last) : inv (callsOf history) last := by
  refine run.invariant (fun history world => inv (callsOf history) world) initial ?_
  rintro history world notes next held ⟨event, permitted, stepped⟩
  simp only [step, Option.some.injEq, Prod.mk.injEq] at stepped
  rcases stepped with ⟨rfl, rfl⟩
  rw [callsOf_append_step]
  exact kept _ _ _ permitted held

end Supervision

theorem lookup_map_replace (fields : List (String × Json)) {key name : String} (value : Json)
    (apart : (name == key) = false) :
    (fields.map fun field => if field.1 = key then (key, value) else field).lookup name =
      fields.lookup name := by
  induction fields with
  | nil => rfl
  | cons field fields ih =>
      rcases field with ⟨first, other⟩
      rw [List.map_cons, List.lookup_cons, ih]
      by_cases same : first = key
      · subst same
        simp [List.lookup_cons, apart]
      · simp [List.lookup_cons, same]

theorem lookup_setField (fields : List (String × Json)) {key name : String} (value : Json)
    (other : name ≠ key) : (Json.setField fields key value).lookup name = fields.lookup name := by
  have apart : (name == key) = false := beq_eq_false_iff_ne.2 other
  unfold Json.setField
  split
  · exact lookup_map_replace fields value apart
  · simp [List.lookup_append, List.lookup_cons, apart]

namespace Loop

variable {base cfg : Json} {overrides : Dict String Json} {guard : Guardrail}

/-- An override changes the risk section alone, and needs it. -/
theorem get?_applyOverride {next : Json} {override : String × Json}
    (applied : applyOverride cfg override = .ok next) :
    (∃ risk, index cfg "risk" = .ok risk) ∧ ∀ key ≠ "risk", next.get? key = cfg.get? key := by
  rcases bind_eq_ok_iff.1 applied with ⟨risk, read, applied⟩
  refine ⟨⟨risk, read⟩, ?_⟩
  intro key other
  split at applied
  · split at applied
    · cases applied
      exact lookup_setField _ _ other
    · cases applied
      rfl
  · cases applied

theorem get?_effectiveCfg (effective : effectiveCfg base overrides = .ok cfg) {key : String}
    (other : key ≠ "risk") : cfg.get? key = base.get? key := by
  unfold effectiveCfg at effective
  generalize overrides.entries = entries at effective
  induction entries generalizing base with
  | nil =>
      cases effective
      rfl
  | cons override entries ih =>
      rw [List.foldlM_cons] at effective
      rcases bind_eq_ok_iff.1 effective with ⟨next, applied, rest⟩
      rw [ih rest, (get?_applyOverride applied).2 key other]

theorem risk_of_effectiveCfg (effective : effectiveCfg base overrides = .ok cfg)
    (read : ∃ risk, index cfg "risk" = .ok risk) : ∃ risk, index base "risk" = .ok risk := by
  unfold effectiveCfg at effective
  rcases listed : overrides.entries with _ | ⟨override, entries⟩
  · rw [listed] at effective
    cases effective
    exact read
  · rw [listed, List.foldlM_cons] at effective
    rcases bind_eq_ok_iff.1 effective with ⟨next, applied, -⟩
    exact (get?_applyOverride applied).1

/-- The guardrail of a tick has the whitelist of the base configuration. -/
theorem ofCfg_base (ready : setUp base overrides = .ok (cfg, guard)) :
    ∃ guard', Guardrail.ofCfg base = .ok guard' ∧ guard'.whitelist = guard.whitelist := by
  rcases bind_eq_ok_iff.1 ready with ⟨cfg', effective, ready⟩
  rcases bind_eq_ok_iff.1 ready with ⟨guard', guarded, ready⟩
  cases ready
  rcases bind_eq_ok_iff.1 guarded with ⟨risk, read, guarded⟩
  rcases bind_eq_ok_iff.1 guarded with ⟨tokens, listed, guarded⟩
  rcases bind_eq_ok_iff.1 guarded with ⟨pairs, paired, guarded⟩
  cases guarded
  rcases risk_of_effectiveCfg effective ⟨risk, read⟩ with ⟨risk', read'⟩
  rw [Read.itemD, get?_effectiveCfg effective (by decide), ← Read.itemD] at listed paired
  refine ⟨_, bind_eq_ok_iff.2 ⟨risk', read', bind_eq_ok_iff.2 ⟨tokens, listed,
    bind_eq_ok_iff.2 ⟨pairs, paired, rfl⟩⟩⟩, ?_⟩
  rfl

end Loop

namespace Supervision

variable {setting : Setting} {start world last : BrainWorld} {event : Event} {history : List Note}
  {accepted : BrainWorld → Event → Prop}

/-- The call is a trade on the whitelist of a configuration. -/
def Whitelisted (cfg : Json) (call : Decision × ℚ) : Prop :=
  call.1.isTrade ∧ ∃ guard, Guardrail.ofCfg cfg = .ok guard ∧ guard.whitelist call.1 = none

/-- A proposal calls the executor with an approved decision alone. -/
theorem approved_of_proposal {ctx : Loop.TickContext} {ledger entries : List LedgerEntry}
    {outside : Outside} {decision : Decision} {calls : List (Decision × ℚ)}
    (proposal : Loop.Proposal ctx ledger outside decision entries calls) {call : Decision × ℚ}
    (mem : call ∈ calls) : call.1 = decision ∧ ∃ verdict,
      Loop.Approved ctx (ledger ++ [Loop.decisionEntry outside decision]) outside decision verdict := by
  cases proposal with
  | unchecked => cases mem
  | declined => cases mem
  | unanswered verdict approved =>
      rw [List.mem_singleton] at mem
      exact ⟨by rw [mem], verdict, approved⟩
  | answered verdict result approved =>
      rw [List.mem_singleton] at mem
      exact ⟨by rw [mem], verdict, approved⟩

/-- A run that buys, pauses, resumes and buys again on request. -/
theorem dip_run : ∃ history last,
    Run (Moves pairSetting fun _ _ => True) (Loop.initialWorld RuntimeState.default) history last ∧
      callsOf history = [(Loop.dipBuy, 25), (Loop.dipBuy, 25)] := by
  have traced : ((trace (step pairSetting) attended (Loop.initialWorld RuntimeState.default)
      [iterated, said "pause", iterated, said "resume", said "tick"]).map
        fun run => callsOf run.2) = some [(Loop.dipBuy, 25), (Loop.dipBuy, 25)] := by
    decide +kernel
  rcases Option.map_eq_some_iff.1 traced with ⟨⟨last, history⟩, traced, calls⟩
  refine ⟨history, last, (Run.of_trace traced).mono ?_, calls⟩
  rintro world notes next ⟨event, -, stepped⟩
  exact ⟨event, trivial, stepped⟩

/-- **The chat does not widen the whitelist.** Whatever messages are handled, in whatever order
with the iterations of the loop, and whatever the brain proposes, the executor is called
only with trades on the whitelist of the base configuration. -/
theorem calls_whitelisted (setting : Setting) (start last : BrainWorld) (history : List Note)
    (run : Run (Moves setting fun _ _ => True) start history last) :
    ∀ call ∈ callsOf history, Whitelisted setting.base call := by
  refine run_invariant (fun calls _ => ∀ call ∈ calls, Whitelisted setting.base call) ?_ ?_ run
  · simp
  · intro calls world event _ held
    refine effects_induct (P := fun fx => ∀ call ∈ calls ++ fx.calls,
      Whitelisted setting.base call) ?_ ?_ ?_
    · intro next _
      simpa [Chat.idle] using held
    · intro ctx fx outside decision ticks _ before call mem
      rcases Loop.judge_extends ctx fx outside decision with ⟨entries, added, more, proposal⟩
      rw [more.calls, ← List.append_assoc, List.mem_append] at mem
      rcases mem with earlier | added
      · exact before call earlier
      · rcases approved_of_proposal proposal added with ⟨same, verdict, approved⟩
        rcases Loop.ofCfg_base ticks.ready with ⟨guard, based, listed⟩
        exact ⟨same ▸ approved.trade, guard, based, by rw [same, listed, approved.whitelisted]⟩
    · intro fx now name payload _ before
      exact before

theorem calls_whitelisted_dip : ∃ history last,
    Run (Moves pairSetting fun _ _ => True) (Loop.initialWorld RuntimeState.default) history last ∧
      callsOf history = [(Loop.dipBuy, 25), (Loop.dipBuy, 25)] ∧
      ∀ call ∈ callsOf history, Whitelisted Loop.pairProfile call := by
  rcases dip_run with ⟨history, last, run, calls⟩
  exact ⟨history, last, run, calls, calls_whitelisted pairSetting _ _ _ run⟩

/-- The executed trades of some seconds. -/
def executedIn (ledger : List LedgerEntry) (first seconds : ℤ) : ℕ :=
  ledger.countP fun entry =>
    entry.event = "executed" ∧ first ≤ entry.ts ∧ entry.ts < first + seconds

/-- No more than so many trades are executed in any window of the width. -/
def RateLimited (seconds : ℤ) (limit : ℕ) (ledger : List LedgerEntry) : Prop :=
  ∀ first, executedIn ledger first seconds ≤ limit

/-- The limit in force is at most the given one, if it can be read at all. -/
def LimitAtMost (base : Json) (limit : ℕ) (world : BrainWorld) : Prop :=
  ∀ cfg guard cap, Loop.setUp base world.runtime.overrides = .ok (cfg, guard) →
    Guardrail.riskNumber guard.risk "max_trades_per_hour" = .ok cap → cap.value ≤ limit

/-- The clock does not go back between the check of a proposal and the record of its execution. -/
def Clocked (event : Event) : Prop :=
  ∀ outside, Answers event outside → outside.checkedAt ≤ outside.executedAt

theorem executedIn_append (ledger entries : List LedgerEntry) (first seconds : ℤ) :
    executedIn (ledger ++ entries) first seconds =
      executedIn ledger first seconds + executedIn entries first seconds := by
  rw [executedIn, executedIn, executedIn, List.countP_append]

theorem executedIn_cons_of_ne {entry : LedgerEntry} (other : entry.event ≠ "executed")
    (ledger : List LedgerEntry) (first seconds : ℤ) :
    executedIn (entry :: ledger) first seconds = executedIn ledger first seconds := by
  rw [executedIn, executedIn, List.countP_cons_of_neg]
  simp [other]

theorem executedIn_nil (first seconds : ℤ) : executedIn [] first seconds = 0 := rfl

theorem rateLimited_append {seconds : ℤ} {limit : ℕ} {ledger entries : List LedgerEntry}
    (kept : RateLimited seconds limit ledger)
    (others : ∀ entry ∈ entries, entry.event ≠ "executed") :
    RateLimited seconds limit (ledger ++ entries) := by
  intro first
  have none : executedIn entries first seconds = 0 := by
    rw [executedIn, List.countP_eq_zero]
    intro entry mem
    simp [others entry mem]
  rw [executedIn_append, none, add_zero]
  exact kept first

/-- A window that a trade falls into lies within the hour that was counted before it. -/
theorem executedIn_lt_of_admitted {ledger : List LedgerEntry} {outside : Outside} {utcOffset : ℤ}
    {limit : ℕ} {cap : ℚ} (clock : outside.checkedAt ≤ outside.executedAt)
    (admitted : (Ledger.tradesLastHour ledger outside.checkedAt utcOffset : ℚ) < cap)
    (atMost : cap ≤ limit) {first : ℤ}
    (within : Ledger.stamp outside.executedAt < first + (3600 - utcOffset)) :
    executedIn ledger first (3600 - utcOffset) < limit := by
  have counted : executedIn ledger first (3600 - utcOffset) ≤
      Ledger.tradesLastHour ledger outside.checkedAt utcOffset := by
    apply List.countP_mono_left
    intro entry _ window
    simp only [decide_eq_true_eq] at window ⊢
    refine ⟨window.1, ?_⟩
    -- the check is no later than the record, which is before the end of the window
    have executedBefore : outside.executedAt < ((first + (3600 - utcOffset) : ℤ) : ℚ) :=
      (Int.lt_floor_add_one outside.executedAt).trans_le (by exact_mod_cast within)
    have recorded : (first : ℚ) ≤ entry.ts := by exact_mod_cast window.2.1
    rw [Ledger.mktime]
    push_cast at executedBefore ⊢
    linarith
  have below : (Ledger.tradesLastHour ledger outside.checkedAt utcOffset : ℚ) < limit :=
    admitted.trans_le atMost
  exact counted.trans_lt (by exact_mod_cast below)

theorem rateLimited_of_proposal {ctx : Loop.TickContext} {ledger entries : List LedgerEntry}
    {outside : Outside} {decision : Decision} {calls : List (Decision × ℚ)} {limit : ℕ}
    (proposal : Loop.Proposal ctx ledger outside decision entries calls)
    (clock : outside.checkedAt ≤ outside.executedAt)
    (atMost : ∀ cap, Guardrail.riskNumber ctx.guard.risk "max_trades_per_hour" = .ok cap →
      cap.value ≤ limit)
    (kept : RateLimited (3600 - ctx.utcOffset) limit ledger) :
    RateLimited (3600 - ctx.utcOffset) limit (ledger ++ entries) := by
  have decided : (Loop.decisionEntry outside decision).event ≠ "executed" := by
    simp [Loop.decisionEntry]
  have judged : ∀ verdict, (Loop.guardrailEntry outside decision verdict).event ≠ "executed" := by
    simp [Loop.guardrailEntry]
  cases proposal with
  | unchecked => exact rateLimited_append kept (by simp [decided])
  | declined verdict declines => exact rateLimited_append kept (by simp [decided, judged])
  | unanswered verdict approved => exact rateLimited_append kept (by simp [decided, judged])
  | answered verdict result approved =>
      intro first
      rcases approved.admitted with ⟨cap, read, admitted⟩
      rw [executedIn_append, executedIn_cons_of_ne decided, executedIn_cons_of_ne (judged verdict)]
      by_cases within : Ledger.stamp outside.executedAt < first + (3600 - ctx.utcOffset)
      · have fewer := executedIn_lt_of_admitted clock admitted (atMost cap read) within
        rw [executedIn_append, executedIn_cons_of_ne decided, executedIn_nil, add_zero] at fewer
        have single : executedIn [Loop.executionEntry outside
            (Loop.executedAmount verdict decision) result] first (3600 - ctx.utcOffset) ≤ 1 :=
          List.countP_le_length
        omega
      · have outsideWindow : executedIn [Loop.executionEntry outside
            (Loop.executedAmount verdict decision) result] first (3600 - ctx.utcOffset) = 0 := by
          simp only [executedIn, Loop.executionEntry, List.countP_eq_zero, List.mem_singleton,
            forall_eq, decide_eq_true_eq, not_and]
          intro _ _
          exact within
        rw [outsideWindow, add_zero]
        exact kept first

/-- **The hourly limit holds in every window.** In a run from an empty ledger that never has a
limit above the given one in force, no window of an hour less the offset of the machine has more
executed trades; on a machine at UTC or behind it, that is every hour. -/
theorem executed_in_window (setting : Setting) (start last : BrainWorld) (history : List Note)
    (limit : ℕ) (fresh : start.ledger = [])
    (run : Run (Moves setting fun world event => LimitAtMost setting.base limit world ∧ Clocked event)
      start history last) (first : ℤ) :
    executedIn last.ledger first (3600 - setting.utcOffset) ≤ limit := by
  have limited : RateLimited (3600 - setting.utcOffset) limit last.ledger := by
    refine run_invariant
      (fun _ world => RateLimited (3600 - setting.utcOffset) limit world.ledger) ?_ ?_ run
    · intro first
      simp [fresh, executedIn]
    · intro calls world event permitted held
      refine effects_induct (P := fun fx => RateLimited (3600 - setting.utcOffset) limit
        fx.world.ledger) ?_ ?_ ?_
      · intro next tends
        simpa only [Chat.idle, tends.ledger] using held
      · intro ctx fx outside decision ticks answers before
        rcases Loop.judge_extends ctx fx outside decision with ⟨entries, added, more, proposal⟩
        rw [more.ledger]
        rw [← ticks.offset] at before ⊢
        refine rateLimited_of_proposal proposal (permitted.2 outside answers) ?_ before
        intro cap read
        exact permitted.1 ctx.cfg ctx.guard cap ticks.ready read
      · intro fx now name payload named before
        refine rateLimited_append before ?_
        intro entry mem
        rw [List.mem_singleton] at mem
        rcases named with rfl | rfl
        · simp [mem]
        · simp [mem]
  exact limited first

theorem limitAtMost_default {world : BrainWorld} (unset : world.runtime = RuntimeState.default) :
    LimitAtMost Loop.pairProfile 4 world := by
  intro cfg guard cap ready read
  rw [unset] at ready
  cases ready
  cases read
  norm_num [Json.Number.value]

theorem executed_in_window_dip : ∃ history last,
    Run (Moves pairSetting fun world event => LimitAtMost Loop.pairProfile 4 world ∧ Clocked event)
        (Loop.initialWorld RuntimeState.default) history last ∧
      callsOf history = [(Loop.dipBuy, 25), (Loop.dipBuy, 25)] ∧
      ∀ first, executedIn last.ledger first 3600 ≤ 4 := by
  have clocked : Clocked iterated := by
    rintro outside ⟨⟩
    exact le_refl _
  have once : Run (Moves pairSetting fun world event =>
      LimitAtMost Loop.pairProfile 4 world ∧ Clocked event)
      (Loop.initialWorld RuntimeState.default) _ _ :=
    Run.single ⟨iterated, ⟨limitAtMost_default rfl, clocked⟩, rfl⟩
  have unset := (iterate_cases pairSetting (fun _ => Loop.dipOutside) 0
    (Loop.initialWorld RuntimeState.default)).1
  have twice := once.move ⟨iterated, ⟨limitAtMost_default unset, clocked⟩, rfl⟩
  refine ⟨_, _, twice, ?_, ?_⟩
  · decide +kernel
  · exact executed_in_window pairSetting _ _ _ 4 rfl twice

/-- The drawdown that a tick in the world hands to the guardrail. -/
def drawdownOf (world : BrainWorld) : ℚ :=
  (world.portfolio.updateAndDrawdown world.runtime.portfolioValueUsd).2

theorem drawdownOf_tended {next : BrainWorld} (tends : Tended world next) :
    drawdownOf next = drawdownOf world := by
  rw [drawdownOf, tends.value]
  rcases tends.portfolio with same | marked
  · rw [same, drawdownOf]
  · rw [marked]
    simp only [Loop.valued, PortfolioFile.updateAndDrawdown, max_assoc, max_self, drawdownOf]

theorem drawdownOf_eq_zero (highest : world.portfolio.hwm ≤ world.runtime.portfolioValueUsd) :
    drawdownOf world = 0 := by
  simp [drawdownOf, PortfolioFile.updateAndDrawdown, max_eq_right highest]

/-- The effective configuration of the overrides has a drawdown cap above the given drawdown. -/
def CapAbove (base : Json) (overrides : Dict String Json) (drawdownPct : ℚ) : Prop :=
  ∃ cfg guard cap, Loop.setUp base overrides = .ok (cfg, guard) ∧
    Guardrail.riskNumber guard.risk "max_drawdown_pct" = .ok cap ∧ drawdownPct < cap.value

/-- An event calls the executor only under a cap above the drawdown. -/
theorem capAbove_of_calls (called : (effects setting world event).calls ≠ []) :
    CapAbove setting.base world.runtime.overrides (drawdownOf world) := by
  have judged : (effects setting world event).calls = [] ∨
      CapAbove setting.base world.runtime.overrides (drawdownOf world) := by
    refine effects_induct (P := fun fx => fx.calls = [] ∨
      CapAbove setting.base world.runtime.overrides (drawdownOf world)) ?_ ?_ ?_
    · intro next _
      exact .inl rfl
    · intro ctx fx outside decision ticks _ before
      rcases Loop.judge_extends ctx fx outside decision with ⟨entries, added, more, proposal⟩
      rcases before with uncalled | above
      · rcases added with _ | ⟨call, added⟩
        · left
          rw [more.calls, uncalled, List.append_nil]
        · right
          rcases approved_of_proposal proposal List.mem_cons_self with ⟨-, verdict, approved⟩
          rcases approved.unbroken with ⟨cap, read, below⟩
          refine ⟨ctx.cfg, ctx.guard, cap, ticks.ready, read, ?_⟩
          rwa [drawdownOf, ← ticks.drawdown]
      · exact .inr above
    · rintro fx now name payload - before
      exact before
  exact judged.resolve_left called

/-- **The circuit breaker sees one drawdown.** In every run the drawdown of every tick is that of
the start, and it is zero if the run starts at a high; whatever comes next calls the executor only
under overrides whose cap is above it. So only a new cap opens or closes the breaker. -/
theorem drawdown_unmoved (setting : Setting) (start last : BrainWorld) (history : List Note)
    (run : Run (Moves setting fun _ _ => True) start history last) :
    drawdownOf last = drawdownOf start ∧
      (start.portfolio.hwm ≤ start.runtime.portfolioValueUsd → drawdownOf last = 0) ∧
      ∀ event, (effects setting last event).calls ≠ [] →
        CapAbove setting.base last.runtime.overrides (drawdownOf start) := by
  have same : drawdownOf last = drawdownOf start := by
    refine run_invariant (fun _ world => drawdownOf world = drawdownOf start) rfl ?_ run
    rintro calls world event - same
    refine effects_induct (P := fun fx => drawdownOf fx.world = drawdownOf start) ?_ ?_ ?_
    · intro next tends
      exact (drawdownOf_tended tends).trans same
    · rintro ctx fx outside decision ticks - before
      rcases Loop.judge_extends ctx fx outside decision with ⟨entries, added, more, -⟩
      rw [drawdownOf, more.portfolio, more.runtime]
      exact before
    · rintro fx now name payload - before
      exact before
  refine ⟨same, ?_, ?_⟩
  · intro highest
    rw [same]
    exact drawdownOf_eq_zero highest
  · intro event called
    rw [← same]
    exact capAbove_of_calls called

theorem drawdown_unmoved_dip : ∃ history last,
    Run (Moves pairSetting fun _ _ => True) (Loop.initialWorld RuntimeState.default) history last ∧
      drawdownOf last = 0 := by
  rcases dip_run with ⟨history, last, run, -⟩
  exact ⟨history, last, run, (drawdown_unmoved pairSetting _ _ _ run).2.1 (by decide +kernel)⟩

/-- The decision that an entry of the ledger lets through. -/
def approvalOf (entry : LedgerEntry) : Option Json :=
  match entry.event, entry.payload.lookup "allowed" with
  | "guardrail", some (.bool true) => entry.payload.lookup "decision"
  | _, _ => none

/-- The amount that an entry of the ledger has handed to the executor. -/
def amountOf (entry : LedgerEntry) : Option Json :=
  if entry.event = "executed" ∨ entry.event = "execute_attempt" then
    entry.payload.lookup "amount_usd"
  else none

/-- The entries account for the calls: they hold an approval for every call, and no execution without
one, in the order of the calls. -/
structure Accounts (entries : List LedgerEntry) (calls : List (Decision × ℚ)) : Prop where
  approvals : (calls.map fun call => call.1.toJson).Sublist (entries.filterMap approvalOf)
  executions : (entries.filterMap amountOf).Sublist (calls.map fun call => Py.floatJson call.2)

theorem Accounts.append {entries more : List LedgerEntry} {calls later : List (Decision × ℚ)}
    (first : Accounts entries calls) (second : Accounts more later) :
    Accounts (entries ++ more) (calls ++ later) where
  approvals := by
    rw [List.map_append, List.filterMap_append]
    exact first.approvals.append second.approvals
  executions := by
    rw [List.map_append, List.filterMap_append]
    exact first.executions.append second.executions

theorem approvalOf_guardrailEntry (outside : Outside) (decision : Decision)
    {verdict : GuardrailVerdict} (allowed : verdict.allowed = true) :
    approvalOf (Loop.guardrailEntry outside decision verdict) = some decision.toJson := by
  simp [approvalOf, Loop.guardrailEntry, List.lookup_cons, allowed]

theorem amountOf_executionEntry (outside : Outside) (amountUsd : ℚ) (result : ExecutionResult) :
    amountOf (Loop.executionEntry outside amountUsd result) = some (Py.floatJson amountUsd) := by
  have named : (Loop.executionEntry outside amountUsd result).event = "executed" ∨
      (Loop.executionEntry outside amountUsd result).event = "execute_attempt" := by
    simp only [Loop.executionEntry]
    split
    · exact Or.inl rfl
    · exact Or.inr rfl
  rw [amountOf, if_pos named]
  rfl

theorem accounts_of_proposal {ctx : Loop.TickContext} {ledger entries : List LedgerEntry}
    {outside : Outside} {decision : Decision} {calls : List (Decision × ℚ)}
    (proposal : Loop.Proposal ctx ledger outside decision entries calls) :
    Accounts entries calls := by
  have decided : amountOf (Loop.decisionEntry outside decision) = none := rfl
  have judged : ∀ verdict, amountOf (Loop.guardrailEntry outside decision verdict) = none := by
    intro verdict
    rfl
  have undecided : approvalOf (Loop.decisionEntry outside decision) = none := rfl
  cases proposal with
  | unchecked => exact ⟨List.nil_sublist _, by simp [decided]⟩
  | declined verdict declines => exact ⟨List.nil_sublist _, by simp [decided, judged]⟩
  | unanswered verdict approved =>
      have approves := approvalOf_guardrailEntry outside decision approved.allowed
      exact ⟨by simp [undecided, approves], by simp [decided, judged]⟩
  | answered verdict result approved =>
      have approves := approvalOf_guardrailEntry outside decision approved.allowed
      refine ⟨?_, by simp [decided, judged, amountOf_executionEntry]⟩
      simp [undecided, approves, List.filterMap_cons]

theorem accounts_of_note (now : ℚ) (payload : List (String × Json)) {name : String}
    (named : name = "paused" ∨ name = "tick_error") :
    Accounts [⟨Ledger.stamp now, name, payload⟩] [] := by
  refine ⟨List.nil_sublist _, ?_⟩
  rcases named with rfl | rfl
  · simp [amountOf]
  · simp [amountOf]

/-- **Every call is on record.** In every run the ledger only grows; its new entries hold the
approval of every call of the executor, and what they record as handed to the executor has been
called with that amount, each in the order of the calls. -/
theorem calls_on_record (setting : Setting) (start last : BrainWorld) (history : List Note)
    (run : Run (Moves setting fun _ _ => True) start history last) :
    ∃ entries, last.ledger = start.ledger ++ entries ∧ Accounts entries (callsOf history) := by
  refine run_invariant (fun calls world => ∃ entries, world.ledger = start.ledger ++ entries ∧
    Accounts entries calls) ⟨[], by simp, .slnil, .slnil⟩ ?_ run
  rintro calls world event - held
  refine effects_induct (P := fun fx => ∃ entries, fx.world.ledger = start.ledger ++ entries ∧
    Accounts entries (calls ++ fx.calls)) ?_ ?_ ?_
  · intro next tends
    simpa [Chat.idle, tends.ledger] using held
  · rintro ctx fx outside decision - - ⟨entries, kept, accounts⟩
    rcases Loop.judge_extends ctx fx outside decision with ⟨more, added, extended, proposal⟩
    refine ⟨entries ++ more, by rw [extended.ledger, kept, List.append_assoc], ?_⟩
    rw [extended.calls, ← List.append_assoc]
    exact accounts.append (accounts_of_proposal proposal)
  · rintro fx now name payload named ⟨entries, kept, accounts⟩
    refine ⟨entries ++ [⟨Ledger.stamp now, name, payload⟩], ?_, ?_⟩
    · rw [← List.append_assoc, ← kept]
      rfl
    · have noted := accounts.append (accounts_of_note now payload named)
      rwa [List.append_nil] at noted

theorem calls_on_record_dip : ∃ history last,
    Run (Moves pairSetting fun _ _ => True) (Loop.initialWorld RuntimeState.default) history last ∧
      Accounts last.ledger [(Loop.dipBuy, 25), (Loop.dipBuy, 25)] := by
  rcases dip_run with ⟨history, last, run, calls⟩
  rcases calls_on_record pairSetting _ _ _ run with ⟨entries, kept, accounts⟩
  rw [calls] at accounts
  exact ⟨history, last, run, by rw [kept]; exact accounts⟩

end Supervision

end SumplusTrader
