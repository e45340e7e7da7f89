import SumplusTrader.Brain.SizeCap
import SumplusTrader.Brain.Supervision
import SumplusTrader.Transition.Run

/-!
# Pausing the agent

This file takes messages to the chat and iterations of the loop as the moves of one system over
the world on disk. The history of a run notes the messages that pause and resume the agent, and the
calls of the executor.

An iteration looks at the flag before it runs a tick; the message `tick` does not. The calls of the
executor lie outside of the pauses in every run in which this message is handled only while the
agent is not paused, which is `no_trade_while_paused`. Without this condition a pause does not
prevent a trade.
-/

namespace SumplusTrader

namespace Supervision

/-- What happens to the agent: a message is handled, or the loop takes an iteration. -/
inductive Event where
  | message (outside : ChatOutside) (text : String)
  | iteration (outside : ℕ → Outside) (now : ℚ)

/-- What is noted of an event. -/
inductive Note where
  | pause
  | resume
  | execute (decision : Decision) (amountUsd : ℚ)
deriving DecidableEq

/-- The configuration of the chat and of the loop, and the local time of the machine. -/
structure Setting where
  cfg : Json
  base : Json
  utcOffset : ℤ

variable {setting : Setting} {world next : BrainWorld} {event : Event} {history notes : List Note}

def effects (setting : Setting) (world : BrainWorld) : Event → BrainEffects
  | .message outside text =>
      (Chat.handle setting.cfg setting.base setting.utcOffset outside world text).1
  | .iteration outside now => Loop.iterate setting.base setting.utcOffset outside now world

/-- The messages that pause or resume the agent. -/
def marks : Event → List Note
  | .message _ text =>
      if Chat.normalized text = "pause" then [.pause]
      else if Chat.normalized text = "resume" then [.resume]
      else []
  | .iteration _ _ => []

def executions (fx : BrainEffects) : List Note :=
  fx.calls.map fun call => .execute call.1 call.2

def step (setting : Setting) (world : BrainWorld) (event : Event) :
    Option (BrainWorld × List Note) :=
  let fx := effects setting world event
  some (fx.world, marks event ++ executions fx)

/-- A message does not ask for a tick while the agent is paused. -/
def attended (world : BrainWorld) : Event → Bool
  | .message _ text => Chat.normalized text ≠ "tick" ∨ world.runtime.paused = false
  | .iteration _ _ => true

/-- The agent has been paused and not been resumed since. -/
def pausedAfter (history : List Note) : Bool :=
  history.foldl (fun paused note =>
    match note with
    | .pause => true
    | .resume => false
    | .execute _ _ => paused) false

/-- The executor is not called between a pause and the next resume. -/
def NoTradeWhilePaused : List Note → Prop :=
  Justified fun before note =>
    ∀ decision amountUsd, note = .execute decision amountUsd → pausedAfter before = false

theorem runtime_record (fx : BrainEffects) (now : ℚ) (name : String)
    (payload : List (String × Json)) :
    (fx.record now name payload).world.runtime = fx.world.runtime := rfl

theorem runtime_carryOut (fx : BrainEffects) (outside : Outside) (decision : Decision)
    (verdict : GuardrailVerdict) :
    (Loop.carryOut fx outside decision verdict).1.world.runtime = fx.world.runtime := by
  dsimp only [Loop.carryOut]
  split
  · split
    · rfl
    · rfl
  · rfl

theorem runtime_judge (ctx : Loop.TickContext) (fx : BrainEffects) (outside : Outside)
    (decision : Decision) :
    (Loop.judge ctx fx outside decision).1.world.runtime = fx.world.runtime := by
  dsimp only [Loop.judge]
  split
  · rfl
  · rw [runtime_carryOut, runtime_record, runtime_record]

theorem runtime_processPair (ctx : Loop.TickContext) (enabled : List String) (fx : BrainEffects)
    (outside : Outside) (pair : Json) :
    (Loop.processPair ctx enabled fx outside pair).1.world.runtime = fx.world.runtime := by
  unfold Loop.processPair
  split
  · rfl
  · rfl
  · split
    · rfl
    · exact runtime_judge ctx fx outside _

theorem runtime_processPairs (ctx : Loop.TickContext) (enabled : List String) (fx : BrainEffects)
    (outside : ℕ → Outside) (pairs : List Json) :
    (Loop.processPairs ctx enabled fx outside pairs).1.world.runtime = fx.world.runtime := by
  induction pairs generalizing fx outside with
  | nil => rfl
  | cons pair pairs ih =>
      have first := runtime_processPair ctx enabled fx (outside 0) pair
      unfold Loop.processPairs
      split
      · next raised =>
        rw [raised] at first
        exact first
      · next done =>
        rw [done] at first
        rw [ih]
        exact first

/-- A tick does not write the runtime state. -/
theorem runtime_tick (base : Json) (utcOffset : ℤ) (outside : ℕ → Outside)
    (portfolioValueUsd : ℚ) (world : BrainWorld) :
    (Loop.tick base utcOffset outside portfolioValueUsd world).1.world.runtime =
      world.runtime := by
  dsimp only [Loop.tick]
  split
  · rfl
  · split
    · rfl
    · rw [runtime_processPairs]

theorem paused_setCap {cfg : Json} {state next : RuntimeState} {message : String}
    (stored : Chat.setCap cfg state message = .ok next) : next.paused = state.paused := by
  unfold Chat.setCap at stored
  split at stored
  · cases stored
    rfl
  · rcases bind_eq_ok_iff.1 stored with ⟨value, -, stored⟩
    rcases bind_eq_ok_iff.1 stored with ⟨risk, -, stored⟩
    split at stored
    · dsimp only at stored
      split at stored
      · cases stored
        rfl
      · cases stored
        rfl
    · cases stored

/-- The executor is not called, and the flag stays as it is. -/
def Quiet (world : BrainWorld) (fx : BrainEffects) : Prop :=
  fx.calls = [] ∧ fx.world.runtime.paused = world.runtime.paused

theorem quiet_storeCap (cfg : Json) (world : BrainWorld) (msg : String)
    (field value : List Char) : Quiet world (Chat.storeCap cfg world msg field value).1 := by
  unfold Chat.storeCap
  split
  · exact ⟨rfl, rfl⟩
  · next stored => exact ⟨rfl, paused_setCap stored⟩

theorem quiet_freeform (cfg : Json) (outside : ChatOutside) (world : BrainWorld) :
    Quiet world (Chat.freeform cfg outside world).1 := by
  unfold Chat.freeform
  split
  · exact ⟨rfl, rfl⟩
  · exact ⟨rfl, rfl⟩

theorem runtime_runCycle (base : Json) (utcOffset : ℤ) (outside : ChatOutside)
    (world : BrainWorld) :
    (Chat.runCycle base utcOffset outside world).1.world.runtime = world.runtime := by
  dsimp only [Chat.runCycle]
  split
  · rfl
  · exact runtime_tick base utcOffset _ _ world

/-- What a message does, by what it says. -/
theorem handle_cases (setting : Setting) (outside : ChatOutside) (world : BrainWorld)
    (text : String) :
    (Chat.normalized text = "pause" ∧
      (effects setting world (.message outside text)).calls = [] ∧
      (effects setting world (.message outside text)).world.runtime.paused = true) ∨
    (Chat.normalized text = "resume" ∧
      (effects setting world (.message outside text)).calls = []) ∨
    (Chat.normalized text = "tick" ∧
      (effects setting world (.message outside text)).world.runtime = world.runtime) ∨
    (Chat.normalized text ≠ "pause" ∧ Chat.normalized text ≠ "resume" ∧
      Quiet world (effects setting world (.message outside text))) := by
  by_cases pause : Chat.normalized text = "pause"
  · left
    simp [effects, Chat.handle, pause, Chat.idle]
  · by_cases resume : Chat.normalized text = "resume"
    · right
      left
      simp [effects, Chat.handle, resume, Chat.idle]
    · right
      right
      by_cases tick : Chat.normalized text = "tick"
      · left
        refine ⟨tick, ?_⟩
        simp [effects, Chat.handle, tick, runtime_runCycle]
      · right
        refine ⟨pause, resume, ?_⟩
        simp only [effects, Chat.handle, pause, resume, tick, if_false]
        split
        · exact ⟨rfl, rfl⟩
        · split
          · exact ⟨rfl, rfl⟩
          · split
            · exact ⟨rfl, rfl⟩
            · split
              · exact ⟨rfl, rfl⟩
              · split
                · exact quiet_storeCap setting.cfg world _ _ _
                · exact quiet_freeform setting.cfg outside world

theorem iterate_cases (setting : Setting) (outside : ℕ → Outside) (now : ℚ)
    (world : BrainWorld) :
    (effects setting world (.iteration outside now)).world.runtime = world.runtime ∧
      (world.runtime.paused = true →
        (effects setting world (.iteration outside now)).calls = []) := by
  have ticked := runtime_tick setting.base setting.utcOffset outside
    world.runtime.portfolioValueUsd world
  simp only [effects, Loop.iterate]
  split
  · exact ⟨rfl, fun _ => rfl⟩
  · next running =>
    split
    · next done =>
      rw [done] at ticked
      exact ⟨ticked, fun paused => absurd paused running⟩
    · next raised =>
      rw [raised] at ticked
      exact ⟨ticked, fun paused => absurd paused running⟩

/-- What a step notes, and what it does to the flag. -/
theorem step_cases {action : Event} (permitted : attended world action = true)
    (stepped : step setting world action = some (next, notes)) :
    (notes = [.pause] ∧ next.runtime.paused = true) ∨ notes = [.resume] ∨
      ∃ calls : List (Decision × ℚ), notes = calls.map (fun call => .execute call.1 call.2) ∧
        next.runtime.paused = world.runtime.paused ∧
        (calls = [] ∨ world.runtime.paused = false) := by
  simp only [step, Option.some.injEq, Prod.mk.injEq] at stepped
  rcases stepped with ⟨rfl, rfl⟩
  cases action with
  | message outside text =>
      rcases handle_cases setting outside world text with
        ⟨pause, quiet, paused⟩ | ⟨resume, quiet⟩ | ⟨tick, runtime⟩ | ⟨notPause, notResume, quiet⟩
      · left
        simp [marks, pause, executions, quiet, paused]
      · right
        left
        simp [marks, resume, executions, quiet]
      · right
        right
        refine ⟨(effects setting world (.message outside text)).calls, ?_,
          congrArg RuntimeState.paused runtime, ?_⟩
        · simp [marks, tick, executions]
        · right
          simpa [attended, tick] using permitted
      · right
        right
        refine ⟨(effects setting world (.message outside text)).calls, ?_, quiet.2,
          Or.inl quiet.1⟩
        simp [marks, notPause, notResume, executions]
  | iteration outside now =>
      rcases iterate_cases setting outside now world with ⟨runtime, silent⟩
      right
      right
      refine ⟨_, rfl, congrArg RuntimeState.paused runtime, ?_⟩
      cases paused : world.runtime.paused with
      | false => exact Or.inr rfl
      | true => exact Or.inl (silent paused)

theorem pausedAfter_append_executes (history : List Note) (calls : List (Decision × ℚ)) :
    pausedAfter (history ++ calls.map fun call => .execute call.1 call.2) =
      pausedAfter history := by
  induction calls using List.reverseRecOn with
  | nil => simp
  | append_singleton calls call ih =>
      rw [List.map_append, ← List.append_assoc, pausedAfter, List.foldl_append]
      exact ih

/-- Calls outside of a pause keep the law. -/
theorem noTrade_append_executes (law : NoTradeWhilePaused history)
    (running : pausedAfter history = false) (calls : List (Decision × ℚ)) :
    NoTradeWhilePaused (history ++ calls.map fun call => .execute call.1 call.2) := by
  induction calls using List.reverseRecOn with
  | nil => simpa using law
  | append_singleton calls call ih =>
      rw [List.map_append, ← List.append_assoc, List.map_singleton, NoTradeWhilePaused,
        justified_concat]
      refine ⟨ih, ?_⟩
      intro decision amountUsd _
      rw [pausedAfter_append_executes]
      exact running

/-- The law holds so far, and a pause that lasts is on disk. -/
def PauseHolds (history : List Note) (world : BrainWorld) : Prop :=
  NoTradeWhilePaused history ∧ (pausedAfter history = true → world.runtime.paused = true)

theorem pauseHolds_step (holds : PauseHolds history world)
    (moved : movesOf (step setting) attended world notes next) :
    PauseHolds (history ++ notes) next := by
  rcases moved with ⟨action, permitted, stepped⟩
  rcases holds with ⟨law, onDisk⟩
  rcases step_cases permitted stepped with
    ⟨rfl, paused⟩ | rfl | ⟨calls, rfl, flag, silent⟩
  · refine ⟨(justified_concat _ _).2 ⟨law, ?_⟩, fun _ => paused⟩
    rintro decision amountUsd ⟨⟩
  · refine ⟨(justified_concat _ _).2 ⟨law, ?_⟩, ?_⟩
    · rintro decision amountUsd ⟨⟩
    · intro paused
      simp [pausedAfter] at paused
  · rw [PauseHolds, pausedAfter_append_executes, flag]
    refine ⟨?_, onDisk⟩
    rcases silent with rfl | running
    · simpa using law
    · apply noTrade_append_executes law
      cases pausedBefore : pausedAfter history with
      | false => rfl
      | true => exact absurd (onDisk pausedBefore) (by simp [running])

/-- **A pause prevents trades** in every run in which the message `tick` is handled only while the
agent is not paused. -/
theorem no_trade_while_paused (setting : Setting) (world last : BrainWorld) (history : List Note)
    (run : Run (movesOf (step setting) attended) world history last) :
    NoTradeWhilePaused history := by
  have holds : PauseHolds history last := by
    refine run.invariant PauseHolds ⟨justified_nil _, ?_⟩ ?_
    · intro paused
      cases paused
    · intro history state notes next holds moved
      exact pauseHolds_step holds moved
  exact holds.1

/-- The profile with one pair, for the chat and for the loop. -/
def pairSetting : Setting := ⟨Loop.pairProfile, Loop.pairProfile, 0⟩

/-- The chat without a key for the language model, and with the brain that buys the dip. -/
def dipChat : ChatOutside where
  make := fun _ => .ok fun _ => Loop.dipOutside
  service := none

/-- Messages, and iterations with the brain that buys the dip. -/
def said (content : String) : Event := .message dipChat content

def iterated : Event := .iteration (fun _ => Loop.dipOutside) 0

theorem no_trade_while_paused_of_resume : ∃ history last,
    Run (movesOf (step pairSetting) attended) (Loop.initialWorld RuntimeState.default) history
      last ∧
    history = [.execute Loop.dipBuy 25, .pause, .resume, .execute Loop.dipBuy 25] ∧
    NoTradeWhilePaused history := by
  have traced : ((trace (step pairSetting) attended (Loop.initialWorld RuntimeState.default)
      [iterated, said "Pause", iterated, said "resume", said "tick"]).map Prod.snd) =
        some [.execute Loop.dipBuy 25, .pause, .resume, .execute Loop.dipBuy 25] := by
    decide +kernel
  rcases Option.map_eq_some_iff.1 traced with ⟨⟨last, history⟩, traced, notes⟩
  have run := Run.of_trace traced
  exact ⟨history, last, run, notes, no_trade_while_paused pairSetting _ last history run⟩

/-- The message `tick` trades right after the agent has been paused. -/
theorem tick_trades_while_paused : ∃ history last,
    Run (movesOf (step pairSetting) fun _ _ => true) (Loop.initialWorld RuntimeState.default)
      history last ∧
    history = [.pause, .execute Loop.dipBuy 25] ∧ ¬NoTradeWhilePaused history := by
  have traced : ((trace (step pairSetting) (fun _ _ => true)
      (Loop.initialWorld RuntimeState.default) [said "pause", said "tick"]).map Prod.snd) =
        some [.pause, .execute Loop.dipBuy 25] := by
    decide +kernel
  rcases Option.map_eq_some_iff.1 traced with ⟨⟨last, history⟩, traced, notes⟩
  refine ⟨history, last, Run.of_trace traced, notes, ?_⟩
  intro law
  have running := law [.pause] (.execute Loop.dipBuy 25) [] notes Loop.dipBuy 25 rfl
  exact absurd running (by decide)

end Supervision

end SumplusTrader
