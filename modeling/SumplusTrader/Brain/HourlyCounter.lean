import SumplusTrader.Brain.Ledger

/-!
# The hourly counter

This file compares the counter that the guardrail reads with the executed trades of the last
hour. The counter takes the time stamps of the ledger for local time, so it looks at an hour
that is moved by the offset of the machine, and it counts entries from the future, too.
-/

namespace SumplusTrader

namespace Ledger

/-- An executed trade that was recorded within the last 3600 seconds. -/
def InLastHour (now : ℚ) (entry : LedgerEntry) : Prop :=
  entry.event = "executed" ∧ now - 3600 ≤ entry.ts ∧ entry.ts ≤ now

instance (now : ℚ) (entry : LedgerEntry) : Decidable (InLastHour now entry) :=
  inferInstanceAs (Decidable (_ ∧ _))

def executedLastHour (ledger : List LedgerEntry) (now : ℚ) : ℕ :=
  ledger.countP fun entry => InLastHour now entry

/-- An executed trade that the offset moves into the hour, or that comes from the future. -/
def MovedIn (now : ℚ) (utcOffset : ℤ) (entry : LedgerEntry) : Prop :=
  entry.event = "executed" ∧ now - 3600 + utcOffset ≤ entry.ts ∧
    (entry.ts < now - 3600 ∨ now < entry.ts)

instance (now : ℚ) (utcOffset : ℤ) (entry : LedgerEntry) :
    Decidable (MovedIn now utcOffset entry) :=
  inferInstanceAs (Decidable (_ ∧ _ ∧ _))

/-- An executed trade of the last hour that the offset moves out of it. -/
def MovedOut (now : ℚ) (utcOffset : ℤ) (entry : LedgerEntry) : Prop :=
  entry.event = "executed" ∧ now - 3600 ≤ entry.ts ∧ entry.ts ≤ now ∧
    entry.ts < now - 3600 + utcOffset

instance (now : ℚ) (utcOffset : ℤ) (entry : LedgerEntry) :
    Decidable (MovedOut now utcOffset entry) :=
  inferInstanceAs (Decidable (_ ∧ _ ∧ _))

/-- Two counts differ by what only one of them counts. -/
theorem countP_exchange {α : Type} (items : List α) (p q : α → Bool) :
    items.countP p + items.countP (fun item => q item && !p item) =
      items.countP q + items.countP (fun item => p item && !q item) := by
  induction items with
  | nil => rfl
  | cons item items ih =>
      simp only [List.countP_cons]
      rcases p item with _ | _ <;> rcases q item with _ | _ <;> simp <;> omega

/-- The counter looks at an hour that is moved by the offset, and on into the future. -/
theorem counted_iff (now : ℚ) (utcOffset ts : ℤ) :
    now - 3600 ≤ mktime utcOffset ts ↔ now - 3600 + utcOffset ≤ ts := by
  rw [mktime, Int.cast_sub, le_sub_iff_add_le]

theorem movedOut_iff (now : ℚ) (utcOffset : ℤ) (entry : LedgerEntry) :
    MovedOut now utcOffset entry ↔ InLastHour now entry ∧
      ¬(entry.event = "executed" ∧ now - 3600 ≤ mktime utcOffset entry.ts) := by
  rw [counted_iff]
  constructor
  · rintro ⟨executed, recent, past, early⟩
    exact ⟨⟨executed, recent, past⟩, fun counted => absurd counted.2 (not_le.2 early)⟩
  · rintro ⟨⟨executed, recent, past⟩, missed⟩
    exact ⟨executed, recent, past, not_le.1 fun counted => missed ⟨executed, counted⟩⟩

theorem movedIn_iff (now : ℚ) (utcOffset : ℤ) (entry : LedgerEntry) :
    MovedIn now utcOffset entry ↔
      (entry.event = "executed" ∧ now - 3600 ≤ mktime utcOffset entry.ts) ∧
        ¬InLastHour now entry := by
  rw [counted_iff]
  constructor
  · rintro ⟨executed, counted, apart⟩
    refine ⟨⟨executed, counted⟩, ?_⟩
    rintro ⟨-, recent, past⟩
    rcases apart with old | future
    · exact absurd recent (not_le.2 old)
    · exact absurd past (not_le.2 future)
  · rintro ⟨⟨executed, counted⟩, apart⟩
    refine ⟨executed, counted, ?_⟩
    by_contra inside
    rw [not_or, not_lt, not_lt] at inside
    exact apart ⟨executed, inside.1, inside.2⟩

/-- The counter is right when as many executed trades are moved into the hour as out of it. -/
theorem tradesLastHour_eq_iff (ledger : List LedgerEntry) (now : ℚ) (utcOffset : ℤ) :
    tradesLastHour ledger now utcOffset = executedLastHour ledger now ↔
      ledger.countP (fun entry => MovedIn now utcOffset entry) =
        ledger.countP fun entry => MovedOut now utcOffset entry := by
  have moved := countP_exchange ledger
    (fun entry => entry.event = "executed" ∧ now - 3600 ≤ mktime utcOffset entry.ts)
    (fun entry => InLastHour now entry)
  simp only [← Bool.decide_and, ← decide_not, ← movedOut_iff, ← movedIn_iff] at moved
  unfold tradesLastHour executedLastHour
  omega

/-- **A machine counts every ledger right**, of entries that are not from the future, exactly when
its local time is UTC. -/
theorem tradesLastHour_eq_everywhere_iff (utcOffset : ℤ) :
    (∀ ledger now, (∀ entry ∈ ledger, (entry.ts : ℚ) ≤ now) →
        tradesLastHour ledger now utcOffset = executedLastHour ledger now) ↔ utcOffset = 0 := by
  constructor
  · intro right
    -- one trade at the start of the epoch, seen an hour later and a second after that
    have sharp := (tradesLastHour_eq_iff _ _ _).1 (right [⟨0, "executed", []⟩] 3600 (by norm_num))
    have late := (tradesLastHour_eq_iff _ _ _).1 (right [⟨0, "executed", []⟩] 3601 (by norm_num))
    rcases lt_trichotomy utcOffset 0 with behind | same | ahead
    · have reached : (utcOffset : ℚ) ≤ -1 := by exact_mod_cast Int.le_sub_one_of_lt behind
      have movedIn : MovedIn 3601 utcOffset ⟨0, "executed", []⟩ :=
        ⟨rfl, by push_cast; linarith, .inl (by norm_num)⟩
      have stays : ¬MovedOut 3601 utcOffset ⟨0, "executed", []⟩ := by
        rintro ⟨-, recent, -⟩
        norm_num at recent
      simp [movedIn, stays] at late
    · exact same
    · have positive : (0 : ℚ) < utcOffset := by exact_mod_cast ahead
      have movedOut : MovedOut 3600 utcOffset ⟨0, "executed", []⟩ :=
        ⟨rfl, by norm_num, by norm_num, by push_cast; linarith⟩
      have stays : ¬MovedIn 3600 utcOffset ⟨0, "executed", []⟩ := by
        rintro ⟨-, -, old | future⟩
        · norm_num at old
        · norm_num at future
      simp [movedOut, stays] at sharp
  · rintro rfl ledger now past
    have noneIn : ledger.countP (fun entry => MovedIn now 0 entry) = 0 := by
      rw [List.countP_eq_zero]
      intro entry mem movedIn
      rcases of_decide_eq_true movedIn with ⟨-, counted, old | future⟩
      · rw [Int.cast_zero, add_zero] at counted
        exact absurd counted (not_le.2 old)
      · exact absurd (past entry mem) (not_le.2 future)
    have noneOut : ledger.countP (fun entry => MovedOut now 0 entry) = 0 := by
      rw [List.countP_eq_zero]
      intro entry _ movedOut
      rcases of_decide_eq_true movedOut with ⟨-, recent, -, early⟩
      rw [Int.cast_zero, add_zero] at early
      exact absurd recent (not_le.2 early)
    rw [tradesLastHour_eq_iff, noneIn, noneOut]

/-- Two hours ahead of UTC, a trade of the last minute is not counted. -/
theorem recent_trade_uncounted :
    executedLastHour (record [] 999940 "executed" []) 1000000 = 1 ∧
      tradesLastHour (record [] 999940 "executed" []) 1000000 7200 = 0 := by
  decide +kernel

end Ledger

end SumplusTrader
