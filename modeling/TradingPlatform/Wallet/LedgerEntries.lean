import TradingPlatform.Library.StepRuns
import TradingPlatform.Wallet.Charges

namespace TradingPlatform

open StepRuns

abbrev LedgerId := ℕ

/-- A row of `ledger_entries`. -/
structure LedgerEntry where
  transactionType : String
  delta : ℚ
  balanceAfter : ℚ
  ref : String
  description : Option String
  deriving DecidableEq, Repr

/-- The row of `transactions` that mirrors a ledger entry, with its reference
`LEDGER-{id}` by that id. -/
structure MirrorTransaction where
  userId : UserId
  transactionType : String
  amount : ℚ
  currency : String
  netAmount : ℚ
  reference : LedgerId
  ledgerRef : String
  description : Option String
  deriving DecidableEq, Repr

/-- The arguments of `create_ledger_entry`. -/
structure EntryArgs where
  transactionType : String
  delta : ℚ
  refId : String
  description : Option String := none
  skipMirrorTransaction : Bool := false
  deriving DecidableEq

/-- The statement a call of `create_ledger_entry` has to execute next, with
what the earlier ones have read. -/
inductive EntryTask
  | idle
  | selectBalance (args : EntryArgs)
  | insertEntry (args : EntryArgs) (currentBalance : ℚ)
  | selectMeta (args : EntryArgs) (currentBalance : ℚ) (ledgerId : LedgerId)
  | insertMirror (args : EntryArgs) (currentBalance : ℚ) (ledgerId : LedgerId) (userId : UserId)
      (currency : String)
  | updateBalance (args : EntryArgs) (currentBalance : ℚ) (ledgerId : LedgerId)
  deriving DecidableEq

/-- The entry a call has inserted and the balance it wrote there. -/
def EntryTask.written : EntryTask → Option (LedgerId × ℚ)
  | .selectMeta args currentBalance ledgerId => some (ledgerId, currentBalance + args.delta)
  | .insertMirror args currentBalance ledgerId _ _ => some (ledgerId, currentBalance + args.delta)
  | .updateBalance args currentBalance ledgerId => some (ledgerId, currentBalance + args.delta)
  | .idle => none
  | .selectBalance _ => none
  | .insertEntry _ _ => none

/-- If the update is next, the balance is still the one that was read. -/
def EntryTask.ReadsCurrent (balance : ℚ) : EntryTask → Prop
  | .updateBalance _ currentBalance _ => balance = currentBalance
  | .idle => True
  | .selectBalance _ => True
  | .insertEntry _ _ => True
  | .selectMeta _ _ _ => True
  | .insertMirror _ _ _ _ _ => True

instance (balance : ℚ) : DecidablePred (EntryTask.ReadsCurrent balance)
  | .updateBalance _ currentBalance _ => inferInstanceAs (Decidable (balance = currentBalance))
  | .idle => inferInstanceAs (Decidable True)
  | .selectBalance _ => inferInstanceAs (Decidable True)
  | .insertEntry _ _ => inferInstanceAs (Decidable True)
  | .selectMeta _ _ _ => inferInstanceAs (Decidable True)
  | .insertMirror _ _ _ _ _ => inferInstanceAs (Decidable True)

/-- The operations that are one transaction each, with what they read from
other tables. -/
inductive WalletTransaction
  | lockMargin (marginRequired : ℚ)
  | rollbackOrderMarginLock (m : Margins)
  | releaseAndApplyPnl (released : Option Bool) (m : Margins) (realizedPnl : ℚ)
  | chargePlacementFee (feeAmountUsd : ℚ)
  | settleSwap (settled : Bool) (userId : UserId) (row : Option PositionRow)

/-- The wallet after a transaction and its delta of the available balance:
what the operation says it moved. `none` when the transaction fails. -/
def Wallet.transact (w : Wallet) : WalletTransaction → Option (Wallet × ℚ)
  | .lockMargin marginRequired =>
    (w.lockMargin marginRequired).map fun (after, m) => (after, -m.1)
  | .rollbackOrderMarginLock m => (w.rollbackOrderMarginLock m).map (·, m.1)
  | .releaseAndApplyPnl released m realizedPnl =>
    (w.releaseAndApplyPnl released m realizedPnl).map fun (after, absorbed) =>
      (after, (absorbed.map fun bonusAbsorb => m.1 + realizedPnl + bonusAbsorb).getD 0)
  | .chargePlacementFee feeAmountUsd =>
    (w.chargePlacementFee feeAmountUsd).map (·, -max feeAmountUsd 0)
  | .settleSwap settled userId row =>
    let (after, debited) := w.settleSwapOnClosedPosition settled userId row
    some (after, -debited.getD 0)

theorem Wallet.transact_availableBalance {w after : Wallet} {op : WalletTransaction} {delta : ℚ}
    (done : w.transact op = some (after, delta)) :
    after.availableBalance = w.availableBalance + delta := by
  cases op with
  | lockMargin marginRequired =>
    obtain ⟨⟨w', m⟩, locked, same⟩ := Option.map_eq_some_iff.mp done
    cases same
    exact (lockMargin_availableBalance locked).trans (sub_eq_add_neg _ _)
  | rollbackOrderMarginLock m =>
    obtain ⟨w', unlocked, same⟩ := Option.map_eq_some_iff.mp done
    cases same
    exact rollbackOrderMarginLock_availableBalance unlocked
  | releaseAndApplyPnl released m realizedPnl =>
    obtain ⟨⟨w', absorbed⟩, applied, same⟩ := Option.map_eq_some_iff.mp done
    cases same
    exact releaseAndApplyPnl_availableBalance applied
  | chargePlacementFee feeAmountUsd =>
    obtain ⟨w', charged, same⟩ := Option.map_eq_some_iff.mp done
    cases same
    exact (chargePlacementFee_availableBalance charged).trans (sub_eq_add_neg _ _)
  | settleSwap settled userId row =>
    cases done
    exact (settleSwapOnClosedPosition_availableBalance w settled userId row).trans
      (sub_eq_add_neg _ _)

/-- One wallet with its ledger, and the calls of `create_ledger_entry` that are
running on it. `applied` sums the deltas of the operations that have finished,
`produced` has the balance that each entry's own update left. -/
structure WalletLedger where
  wallet : Wallet
  userId : UserId
  currency : String
  entries : LedgerId → Option LedgerEntry
  mirrors : List MirrorTransaction
  tasks : ℕ → EntryTask
  applied : ℚ
  produced : LedgerId → Option ℚ

inductive LedgerAction
  | transact (op : WalletTransaction)
  | call (t : ℕ) (args : EntryArgs)
  | advance (t : ℕ) (uuid : LedgerId)

namespace WalletLedger

def opened (wallet : Wallet) (userId : UserId) (currency : String) : WalletLedger where
  wallet := wallet
  userId := userId
  currency := currency
  entries := fun _ => none
  mirrors := []
  tasks := fun _ => .idle
  applied := 0
  produced := fun _ => none

/-- A transaction that fails is rolled back. -/
def transact (s : WalletLedger) (op : WalletTransaction) : WalletLedger :=
  match s.wallet.transact op with
  | none => s
  | some (wallet, delta) => { s with wallet := wallet, applied := s.applied + delta }

def setTask (s : WalletLedger) (t : ℕ) (task : EntryTask) : WalletLedger :=
  { s with tasks := Function.update s.tasks t task }

/-- The next statement of a call. The id of a new entry is a new one. -/
def advance (s : WalletLedger) (t : ℕ) (uuid : LedgerId) : Option WalletLedger :=
  match s.tasks t with
  | .idle => none
  | .selectBalance args => some (s.setTask t (.insertEntry args s.wallet.availableBalance))
  | .insertEntry args currentBalance =>
    if s.entries uuid = none then
      let entry : LedgerEntry :=
        { transactionType := args.transactionType, delta := args.delta
          balanceAfter := currentBalance + args.delta, ref := args.refId
          description := args.description }
      some { s with
        entries := Function.update s.entries uuid (some entry)
        tasks := Function.update s.tasks t
          (if args.skipMirrorTransaction then .updateBalance args currentBalance uuid
            else .selectMeta args currentBalance uuid) }
    else none
  | .selectMeta args currentBalance ledgerId =>
    some (s.setTask t (.insertMirror args currentBalance ledgerId s.userId s.currency))
  | .insertMirror args currentBalance ledgerId userId currency =>
    let mirror : MirrorTransaction :=
      { userId := userId, transactionType := args.transactionType, amount := |args.delta|
        currency := currency, netAmount := args.delta, reference := ledgerId
        ledgerRef := args.refId, description := args.description }
    some { s with
      mirrors := s.mirrors ++ [mirror]
      tasks := Function.update s.tasks t (.updateBalance args currentBalance ledgerId) }
  | .updateBalance args currentBalance ledgerId =>
    let wallet := { s.wallet with availableBalance := currentBalance + args.delta }
    some { s with
      wallet := wallet
      tasks := Function.update s.tasks t .idle
      applied := s.applied + args.delta
      produced := Function.update s.produced ledgerId (some wallet.availableBalance) }

def step (s : WalletLedger) : LedgerAction → Option WalletLedger
  | .transact op => some (s.transact op)
  | .call t args =>
    match s.tasks t with
    | .idle => some (s.setTask t (.selectBalance args))
    | _ => none
  | .advance t uuid => s.advance t uuid

/-- A call stores its balance only while the wallet still has the one it read. -/
def ReadsCurrent (s : WalletLedger) : LedgerAction → Prop
  | .advance t _ => (s.tasks t).ReadsCurrent s.wallet.availableBalance
  | .transact _ => True
  | .call _ _ => True

instance (s : WalletLedger) : DecidablePred s.ReadsCurrent
  | .advance t _ => inferInstanceAs (Decidable ((s.tasks t).ReadsCurrent _))
  | .transact _ => inferInstanceAs (Decidable True)
  | .call _ _ => inferInstanceAs (Decidable True)

/-- No update of the wallet was lost, and every entry has the balance that its
own update left. -/
def Exact (initial : Wallet) (s : WalletLedger) : Prop :=
  s.wallet.availableBalance = initial.availableBalance + s.applied ∧
  ∀ ledgerId, ∀ entry ∈ s.entries ledgerId, s.produced ledgerId = some entry.balanceAfter

/-- The balance adds up at every moment; an entry is either produced or still
to be by the call that wrote it. -/
structure Sound (initial : Wallet) (s : WalletLedger) : Prop where
  balance : s.wallet.availableBalance = initial.availableBalance + s.applied
  written : ∀ t ledgerId balanceAfter, (s.tasks t).written = some (ledgerId, balanceAfter) →
    ∃ entry ∈ s.entries ledgerId, entry.balanceAfter = balanceAfter
  entries : ∀ ledgerId, ∀ entry ∈ s.entries ledgerId,
    s.produced ledgerId = some entry.balanceAfter ∨
      ∃ t balanceAfter, (s.tasks t).written = some (ledgerId, balanceAfter)

variable {initial : Wallet} {s after : WalletLedger}

theorem Sound.transact (sound : s.Sound initial) (op : WalletTransaction) :
    (s.transact op).Sound initial := by
  unfold WalletLedger.transact
  split
  next => exact sound
  next wallet delta done =>
    refine { sound with balance := ?_ }
    change wallet.availableBalance = initial.availableBalance + (s.applied + delta)
    rw [Wallet.transact_availableBalance done, sound.balance, add_assoc]

/-- A call moves on without touching wallet or entries. -/
theorem Sound.setTask (sound : s.Sound initial) {t : ℕ} {task : EntryTask}
    (same : task.written = (s.tasks t).written) : (s.setTask t task).Sound initial where
  balance := sound.balance
  written u ledgerId balanceAfter written := by
    change (Function.update s.tasks t task u).written = _ at written
    refine sound.written u ledgerId balanceAfter (Eq.trans ?_ written)
    by_cases isTask : u = t
    · rw [isTask, Function.update_self, same]
    · rw [Function.update_of_ne isTask]
  entries ledgerId entry isEntry := by
    refine (sound.entries ledgerId entry isEntry).imp_right ?_
    rintro ⟨u, balanceAfter, written⟩
    refine ⟨u, balanceAfter, Eq.trans ?_ written⟩
    change (Function.update s.tasks t task u).written = _
    by_cases isTask : u = t
    · rw [isTask, Function.update_self, same]
    · rw [Function.update_of_ne isTask]

/-- A new entry is written by the call that inserts it. -/
theorem Sound.insertEntry (sound : s.Sound initial) {t : ℕ} {uuid : LedgerId}
    {entry : LedgerEntry} {task : EntryTask} (fresh : s.entries uuid = none)
    (before : (s.tasks t).written = none)
    (written : task.written = some (uuid, entry.balanceAfter)) :
    Sound initial { s with
      entries := Function.update s.entries uuid (some entry)
      tasks := Function.update s.tasks t task } where
  balance := sound.balance
  written u ledgerId balanceAfter isWritten := by
    change (Function.update s.tasks t task u).written = _ at isWritten
    change ∃ e ∈ Function.update s.entries uuid (some entry) ledgerId, _
    by_cases isTask : u = t
    · rw [isTask, Function.update_self, written] at isWritten
      cases isWritten
      exact ⟨entry, Function.update_self .., rfl⟩
    · rw [Function.update_of_ne isTask] at isWritten
      obtain ⟨e, isEntry, value⟩ := sound.written u ledgerId balanceAfter isWritten
      have differ : ledgerId ≠ uuid := by
        rintro rfl
        rw [fresh] at isEntry
        cases isEntry
      exact ⟨e, (Function.update_of_ne differ ..).trans isEntry, value⟩
  entries ledgerId e isEntry := by
    change Function.update s.entries uuid (some entry) ledgerId = some e at isEntry
    by_cases same : ledgerId = uuid
    · refine .inr ⟨t, entry.balanceAfter, ?_⟩
      change (Function.update s.tasks t task t).written = _
      rw [Function.update_self, written, same]
    · rw [Function.update_of_ne same] at isEntry
      refine (sound.entries ledgerId e isEntry).imp_right ?_
      rintro ⟨u, balanceAfter, isWritten⟩
      refine ⟨u, balanceAfter, ?_⟩
      change (Function.update s.tasks t task u).written = _
      have differ : u ≠ t := by
        rintro rfl
        rw [before] at isWritten
        cases isWritten
      rw [Function.update_of_ne differ, isWritten]

/-- The update of a call that has read the current balance. -/
theorem Sound.updateBalance (sound : s.Sound initial) {t : ℕ} {args : EntryArgs}
    {currentBalance : ℚ} {ledgerId : LedgerId}
    (atTask : s.tasks t = .updateBalance args currentBalance ledgerId)
    (current : s.wallet.availableBalance = currentBalance) :
    Sound initial { s with
      wallet := { s.wallet with availableBalance := currentBalance + args.delta }
      tasks := Function.update s.tasks t .idle
      applied := s.applied + args.delta
      produced := Function.update s.produced ledgerId (some (currentBalance + args.delta)) } where
  balance := by
    change currentBalance + args.delta = initial.availableBalance + (s.applied + args.delta)
    rw [← current, sound.balance, add_assoc]
  written u id balanceAfter isWritten := by
    change (Function.update s.tasks t .idle u).written = _ at isWritten
    by_cases isTask : u = t
    · rw [isTask, Function.update_self] at isWritten
      cases isWritten
    · rw [Function.update_of_ne isTask] at isWritten
      exact sound.written u id balanceAfter isWritten
  entries id entry isEntry := by
    have own : (s.tasks t).written = some (ledgerId, currentBalance + args.delta) := by
      rw [atTask]
      rfl
    change Function.update s.produced ledgerId _ id = _ ∨
      ∃ u balanceAfter, (Function.update s.tasks t .idle u).written = _
    by_cases same : id = ledgerId
    · obtain ⟨e, again, value⟩ := sound.written t ledgerId _ own
      rw [same] at isEntry
      cases Option.some.inj (isEntry.symm.trans again)
      rw [same, Function.update_self, value]
      exact .inl rfl
    · rw [Function.update_of_ne same]
      refine (sound.entries id entry isEntry).imp_right ?_
      rintro ⟨u, balanceAfter, isWritten⟩
      have differ : u ≠ t := by
        rintro rfl
        rw [own] at isWritten
        cases isWritten
        exact same rfl
      exact ⟨u, balanceAfter, by rw [Function.update_of_ne differ, isWritten]⟩

theorem Sound.advance (sound : s.Sound initial) {t : ℕ} {uuid : LedgerId}
    (current : s.ReadsCurrent (.advance t uuid)) (taken : s.advance t uuid = some after) :
    after.Sound initial := by
  unfold WalletLedger.advance at taken
  split at taken <;> rename_i atTask
  · cases taken
  · cases taken
    exact sound.setTask (by rw [atTask]; rfl)
  · dsimp only at taken
    split_ifs at taken with fresh <;> cases taken <;>
      exact sound.insertEntry fresh (by rw [atTask]; rfl) rfl
  · cases taken
    exact sound.setTask (by rw [atTask]; rfl)
  · cases taken
    have moved : Sound initial (s.setTask t (.updateBalance _ _ _)) :=
      sound.setTask (by rw [atTask]; rfl)
    exact { moved with }
  · cases taken
    change (s.tasks t).ReadsCurrent s.wallet.availableBalance at current
    rw [atTask] at current
    exact sound.updateBalance atTask current

theorem Sound.step (sound : s.Sound initial) {action : LedgerAction}
    (current : s.ReadsCurrent action) (taken : s.step action = some after) :
    after.Sound initial := by
  cases action with
  | transact op =>
    cases taken
    exact sound.transact op
  | call t args =>
    simp only [WalletLedger.step] at taken
    split at taken
    next isIdle =>
      cases taken
      exact sound.setTask (by rw [isIdle]; rfl)
    next => cases taken
  | advance t uuid => exact sound.advance current taken

theorem sound_opened (initial : Wallet) (userId : UserId) (currency : String) :
    (opened initial userId currency).Sound initial where
  balance := (add_zero _).symm
  written t ledgerId balanceAfter written := by cases written
  entries ledgerId entry isEntry := by cases isEntry

/-- A task that no action calls stays idle. -/
theorem idle_of_not_called {ok : WalletLedger → LedgerAction → Prop} {userId : UserId}
    {currency : String} {actions : List LedgerAction} {t : ℕ}
    (run : GuardedRun step ok (opened initial userId currency) actions s)
    (notCalled : ∀ args, .call t args ∉ actions) : s.tasks t = .idle := by
  let Idle (labels : List LedgerAction) (s : WalletLedger) : Prop :=
    (∀ args, .call t args ∉ labels) → s.tasks t = .idle
  have initially : Idle [] (opened initial userId currency) := fun _ => rfl
  refine run.invariant_labels initially ?_ notCalled
  intro labels before action after _ taken ih notCalled
  have idle := ih fun args member => notCalled args (List.mem_append_left _ member)
  cases action with
  | transact op =>
    cases taken
    unfold WalletLedger.transact
    split <;> exact idle
  | call u args =>
    have differ : t ≠ u := by
      rintro rfl
      exact notCalled args (List.mem_append_right _ List.mem_cons_self)
    simp only [WalletLedger.step] at taken
    split at taken
    next =>
      cases taken
      exact (Function.update_of_ne differ _ _).trans idle
    next => cases taken
  | advance u uuid =>
    change before.advance u uuid = some after at taken
    by_cases same : t = u
    · rw [← same, WalletLedger.advance, idle] at taken
      cases taken
    · unfold WalletLedger.advance at taken
      split at taken
      · cases taken
      · cases taken
        exact (Function.update_of_ne same _ _).trans idle
      · dsimp only at taken
        split_ifs at taken <;> cases taken <;> exact (Function.update_of_ne same _ _).trans idle
      all_goals
        cases taken
        exact (Function.update_of_ne same _ _).trans idle

def emptyWallet : Wallet := .cash 0 0

def deposit (delta : ℚ) (refId : String) : EntryArgs :=
  { transactionType := "deposit", delta := delta, refId := refId }

/-- Two deposits that both read the empty balance. -/
def overlappingActions : List LedgerAction :=
  [.call 0 (deposit 100 "DEP-1"), .call 1 (deposit 50 "DEP-2"),
   .advance 0 0, .advance 1 0,
   .advance 0 1, .advance 0 0, .advance 0 0, .advance 0 0,
   .advance 1 2, .advance 1 0, .advance 1 0, .advance 1 0]

/-- A deposit, and after it a fee and a second deposit that overlap without
the fee coming between its read and its update. -/
def successiveActions : List LedgerAction :=
  [.call 0 (deposit 100 "DEP-1"), .call 1 { deposit 50 "DEP-2" with skipMirrorTransaction := true },
   .advance 0 0, .advance 0 1, .advance 0 0, .advance 0 0, .advance 0 0,
   .transact (.lockMargin 40),
   .transact (.chargePlacementFee 5),
   .advance 1 0, .advance 1 2, .advance 1 0]

end WalletLedger

end TradingPlatform
