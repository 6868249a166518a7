import TradingPlatform.Engine.RedisStore

namespace TradingPlatform

/-- What a handler that has begun to change the bookkeeping of an order has
still to do. -/
inductive Duty
  | list
  | cache
  | uncache
  | uncacheAndUnlist
  | unlist
  deriving DecidableEq, Repr

namespace Duty

def Adds (d : Duty) : Prop := d = .list ∨ d = .cache

def Uncaches (d : Duty) : Prop := d = .uncache ∨ d = .uncacheAndUnlist

def Unlists (d : Duty) : Prop := d = .unlist ∨ d = .uncacheAndUnlist

end Duty

/-- Where one order id is booked as pending: in its record, in the pending sets
of Redis and in those of the cache, and what the handlers still owe. -/
@[ext]
structure OrderBook where
  /-- the symbol of the record, and whether its status is PENDING -/
  filed : Option (Symbol × Bool)
  listed : Set Symbol
  cached : Set Symbol
  duties : ℕ → Option Duty

namespace OrderBook

/-- The books agree up to what is still owed: a handler brings a pending order
in, or takes an order out that is no longer pending, never both at once. -/
structure Balanced (b : OrderBook) : Prop where
  symbols : ∀ s, s ∈ b.listed ∨ s ∈ b.cached → ∃ pending, b.filed = some (s, pending)
  unfiled : b.filed = none → ∀ t, b.duties t = none
  pendingListed : ∀ s, b.filed = some (s, true) → s ∈ b.listed ∨
    ∃ t, ∃ d ∈ b.duties t, d = .list
  pendingCached : ∀ s, b.filed = some (s, true) →
    s ∈ b.cached ∨ ∃ t, ∃ d ∈ b.duties t, d.Adds
  pendingAdds : ∀ s, b.filed = some (s, true) → ∀ t, ∀ d ∈ b.duties t, d.Adds
  settledListed : ∀ s, b.filed = some (s, false) → s ∈ b.listed → ∃ t, ∃ d ∈ b.duties t, d.Unlists
  settledCached : ∀ s, b.filed = some (s, false) → s ∈ b.cached →
    ∃ t, ∃ d ∈ b.duties t, d.Uncaches
  settledDrops : ∀ s, b.filed = some (s, false) → ∀ t, ∀ d ∈ b.duties t, ¬ d.Adds

/-- One command of handler `t`. -/
inductive Move (t : ℕ) (b : OrderBook) : OrderBook → Prop
  | idle : Move t b b
  | file {s : Symbol} (free : ∀ u, b.duties u = none)
      (sameSymbol : ∀ r ∈ b.filed, r.1 = s) :
      Move t b { b with filed := some (s, true), duties := Function.update b.duties t (some .list) }
  | list {s : Symbol} {pending : Bool} (filed : b.filed = some (s, pending))
      (due : b.duties t = some .list) :
      Move t b { b with
        listed := insert s b.listed, duties := Function.update b.duties t (some .cache) }
  | cache {s : Symbol} {pending : Bool} (filed : b.filed = some (s, pending))
      (due : b.duties t = some .cache) :
      Move t b { b with cached := insert s b.cached, duties := Function.update b.duties t none }
  | settle {s : Symbol} (filed : b.filed = some (s, true)) (free : b.duties t = none)
      (nothingAdded : ∀ u, ∀ d ∈ b.duties u, ¬ d.Adds) :
      Move t b { b with
        filed := some (s, false), listed := b.listed \ {s}
        duties := Function.update b.duties t (some .uncache) }
  | settledBefore {s : Symbol} (filed : b.filed = some (s, false)) (free : b.duties t = none) :
      Move t b { b with duties := Function.update b.duties t (some .uncache) }
  | reject {s : Symbol} {pending : Bool} (filed : b.filed = some (s, pending))
      (free : b.duties t = none) (nothingAdded : ∀ u, ∀ d ∈ b.duties u, ¬ d.Adds) :
      Move t b { b with
        filed := some (s, false)
        duties := Function.update b.duties t (some .uncacheAndUnlist) }
  | uncache {s : Symbol} {pending : Bool} (filed : b.filed = some (s, pending))
      (due : b.duties t = some .uncache) :
      Move t b { b with cached := b.cached \ {s}, duties := Function.update b.duties t none }
  | uncacheRejected {s : Symbol} {pending : Bool} (filed : b.filed = some (s, pending))
      (due : b.duties t = some .uncacheAndUnlist) :
      Move t b { b with
        cached := b.cached \ {s}, duties := Function.update b.duties t (some .unlist) }
  | unlist {s : Symbol} {pending : Bool} (filed : b.filed = some (s, pending))
      (due : b.duties t = some .unlist) :
      Move t b { b with listed := b.listed \ {s}, duties := Function.update b.duties t none }

variable {t : ℕ} {b after : OrderBook}

/-- No duty of a pending order takes it out. -/
theorem Balanced.settled_of_due (balanced : b.Balanced) {s : Symbol} {pending : Bool} {d : Duty}
    (filed : b.filed = some (s, pending)) (due : b.duties t = some d) (drops : ¬ d.Adds) :
    pending = false := by
  cases pending with
  | false => rfl
  | true => exact absurd (balanced.pendingAdds s filed t d due) drops

theorem Balanced.pending_of_due (balanced : b.Balanced) {s : Symbol} {pending : Bool} {d : Duty}
    (filed : b.filed = some (s, pending)) (due : b.duties t = some d) (adds : d.Adds) :
    pending = true := by
  cases pending with
  | true => rfl
  | false => exact absurd adds (balanced.settledDrops s filed t d due)

/-- All duties but the one of handler `t` stay. -/
theorem exists_duty_update {next : Option Duty} {P : Duty → Prop}
    (owed : ∃ u, ∃ d ∈ b.duties u, P d) (kept : ∀ d ∈ b.duties t, P d → ∃ d' ∈ next, P d') :
    ∃ u, ∃ d ∈ Function.update b.duties t next u, P d := by
  obtain ⟨u, d, due, holds⟩ := owed
  by_cases own : u = t
  · subst own
    obtain ⟨d', isNext, holds'⟩ := kept d due holds
    exact ⟨u, d', by rw [Function.update_self]; exact isNext, holds'⟩
  · exact ⟨u, d, by rw [Function.update_of_ne own]; exact due, holds⟩

theorem forall_duty_update {next : Option Duty} {P : Duty → Prop}
    (all : ∀ u, ∀ d ∈ b.duties u, P d) (new : ∀ d ∈ next, P d) :
    ∀ u, ∀ d ∈ Function.update b.duties t next u, P d := by
  intro u d due
  by_cases own : u = t
  · subst own
    rw [Function.update_self] at due
    exact new d due
  · rw [Function.update_of_ne own] at due
    exact all u d due

theorem balanced_of_pending {s : Symbol} (filed : b.filed = some (s, true))
    (symbols : ∀ r, r ∈ b.listed ∨ r ∈ b.cached → r = s)
    (listed : s ∈ b.listed ∨ ∃ t, ∃ d ∈ b.duties t, d = .list)
    (cached : s ∈ b.cached ∨ ∃ t, ∃ d ∈ b.duties t, d.Adds)
    (adds : ∀ t, ∀ d ∈ b.duties t, d.Adds) : b.Balanced := by
  constructor
  · intro r booked
    exact ⟨true, (symbols r booked).symm ▸ filed⟩
  · simp [filed]
  · intro r isFiled
    cases filed.symm.trans isFiled
    exact listed
  · intro r isFiled
    cases filed.symm.trans isFiled
    exact cached
  · exact fun _ _ => adds
  · intro r isFiled
    cases filed.symm.trans isFiled
  · intro r isFiled
    cases filed.symm.trans isFiled
  · intro r isFiled
    cases filed.symm.trans isFiled

theorem balanced_of_settled {s : Symbol} (filed : b.filed = some (s, false))
    (symbols : ∀ r, r ∈ b.listed ∨ r ∈ b.cached → r = s)
    (listed : s ∈ b.listed → ∃ t, ∃ d ∈ b.duties t, d.Unlists)
    (cached : s ∈ b.cached → ∃ t, ∃ d ∈ b.duties t, d.Uncaches)
    (drops : ∀ t, ∀ d ∈ b.duties t, ¬ d.Adds) : b.Balanced := by
  constructor
  · intro r booked
    exact ⟨false, (symbols r booked).symm ▸ filed⟩
  · simp [filed]
  · intro r isFiled
    cases filed.symm.trans isFiled
  · intro r isFiled
    cases filed.symm.trans isFiled
  · intro r isFiled
    cases filed.symm.trans isFiled
  · intro r isFiled
    cases filed.symm.trans isFiled
    exact listed
  · intro r isFiled
    cases filed.symm.trans isFiled
    exact cached
  · exact fun _ _ => drops

theorem Balanced.symbol_eq (balanced : b.Balanced) {s : Symbol} {pending : Bool}
    (filed : b.filed = some (s, pending)) {r : Symbol} (booked : r ∈ b.listed ∨ r ∈ b.cached) :
    r = s := by
  obtain ⟨_, isFiled⟩ := balanced.symbols r booked
  cases filed.symm.trans isFiled
  rfl

theorem Move.balanced (move : Move t b after) (balanced : b.Balanced) : after.Balanced := by
  cases move with
  | idle => exact balanced
  | @file s free sameSymbol =>
    have owes : ∃ u, ∃ d ∈ Function.update b.duties t (some .list) u, d = .list :=
      ⟨t, .list, by simp, rfl⟩
    refine balanced_of_pending rfl ?_ (.inr owes) (.inr ?_) ?_
    · intro r booked
      obtain ⟨_, filed⟩ := balanced.symbols r booked
      exact sameSymbol _ filed
    · obtain ⟨u, d, due, isList⟩ := owes
      exact ⟨u, d, due, .inl isList⟩
    · refine forall_duty_update ?_ ?_
      · simp [free]
      · simp [Duty.Adds]
  | @list s pending filed due =>
    cases balanced.pending_of_due filed due (.inl rfl)
    refine balanced_of_pending filed ?_ (.inl (Set.mem_insert ..)) ?_ ?_
    · rintro r ((rfl | listed) | cached)
      · rfl
      · exact balanced.symbol_eq filed (.inl listed)
      · exact balanced.symbol_eq filed (.inr cached)
    · rcases balanced.pendingCached s filed with cached | owed
      · exact .inl cached
      · refine .inr (exists_duty_update owed ?_)
        simp [Duty.Adds]
    · refine forall_duty_update (balanced.pendingAdds s filed) ?_
      simp [Duty.Adds]
  | @cache s pending filed due =>
    cases balanced.pending_of_due filed due (.inr rfl)
    refine balanced_of_pending filed ?_ ?_ (.inl (Set.mem_insert ..)) ?_
    · rintro r (listed | rfl | cached)
      · exact balanced.symbol_eq filed (.inl listed)
      · rfl
      · exact balanced.symbol_eq filed (.inr cached)
    · rcases balanced.pendingListed s filed with listed | owed
      · exact .inl listed
      · refine .inr (exists_duty_update owed ?_)
        simp [due]
    · refine forall_duty_update (balanced.pendingAdds s filed) ?_
      simp
  | @settle s filed free nothingAdded =>
    refine balanced_of_settled rfl ?_ ?_ ?_ ?_
    · rintro r (⟨listed, -⟩ | cached)
      · exact balanced.symbol_eq filed (.inl listed)
      · exact balanced.symbol_eq filed (.inr cached)
    · simp
    · exact fun _ => ⟨t, .uncache, by simp, .inl rfl⟩
    · refine forall_duty_update nothingAdded ?_
      simp [Duty.Adds]
  | @settledBefore s filed free =>
    refine balanced_of_settled filed ?_ ?_ ?_ ?_
    · exact fun r => balanced.symbol_eq filed
    · intro listed
      refine exists_duty_update (balanced.settledListed s filed listed) ?_
      simp [free]
    · exact fun _ => ⟨t, .uncache, by simp, .inl rfl⟩
    · refine forall_duty_update (balanced.settledDrops s filed) ?_
      simp [Duty.Adds]
  | @reject s pending filed free nothingAdded =>
    refine balanced_of_settled rfl ?_ ?_ ?_ ?_
    · exact fun r => balanced.symbol_eq filed
    · exact fun _ => ⟨t, .uncacheAndUnlist, by simp, .inr rfl⟩
    · exact fun _ => ⟨t, .uncacheAndUnlist, by simp, .inr rfl⟩
    · refine forall_duty_update nothingAdded ?_
      simp [Duty.Adds]
  | @uncache s pending filed due =>
    cases balanced.settled_of_due filed due (by simp [Duty.Adds])
    refine balanced_of_settled filed ?_ ?_ ?_ ?_
    · rintro r (listed | ⟨cached, -⟩)
      · exact balanced.symbol_eq filed (.inl listed)
      · exact balanced.symbol_eq filed (.inr cached)
    · intro listed
      refine exists_duty_update (balanced.settledListed s filed listed) ?_
      simp [due, Duty.Unlists]
    · simp
    · refine forall_duty_update (balanced.settledDrops s filed) ?_
      simp
  | @uncacheRejected s pending filed due =>
    cases balanced.settled_of_due filed due (by simp [Duty.Adds])
    refine balanced_of_settled filed ?_ ?_ ?_ ?_
    · rintro r (listed | ⟨cached, -⟩)
      · exact balanced.symbol_eq filed (.inl listed)
      · exact balanced.symbol_eq filed (.inr cached)
    · intro listed
      refine exists_duty_update (balanced.settledListed s filed listed) ?_
      simp [Duty.Unlists]
    · simp
    · refine forall_duty_update (balanced.settledDrops s filed) ?_
      simp [Duty.Adds]
  | @unlist s pending filed due =>
    cases balanced.settled_of_due filed due (by simp [Duty.Adds])
    refine balanced_of_settled filed ?_ ?_ ?_ ?_
    · rintro r (⟨listed, -⟩ | cached)
      · exact balanced.symbol_eq filed (.inl listed)
      · exact balanced.symbol_eq filed (.inr cached)
    · simp
    · intro cached
      refine exists_duty_update (balanced.settledCached s filed cached) ?_
      simp [due, Duty.Uncaches]
    · refine forall_duty_update (balanced.settledDrops s filed) ?_
      simp

theorem balanced_of_agrees (free : ∀ t, b.duties t = none)
    (listed : ∀ s, s ∈ b.listed ↔ b.filed = some (s, true)) (cached : b.cached = b.listed) :
    b.Balanced := by
  constructor
  · intro s booked
    rw [cached, or_self, listed] at booked
    exact ⟨true, booked⟩
  · exact fun _ => free
  · exact fun s filed => .inl ((listed s).mpr filed)
  · intro s filed
    rw [cached]
    exact .inl ((listed s).mpr filed)
  · simp [free]
  · intro s filed isListed
    have pending := filed.symm.trans ((listed s).mp isListed)
    simp at pending
  · intro s filed isCached
    rw [cached] at isCached
    have pending := filed.symm.trans ((listed s).mp isCached)
    simp at pending
  · simp [free]

/-- With nothing owed, an order is booked where it is filed as pending. -/
theorem Balanced.agrees (balanced : b.Balanced) (free : ∀ t, b.duties t = none) (s : Symbol) :
    (s ∈ b.cached ↔ b.filed = some (s, true)) ∧ (s ∈ b.listed ↔ b.filed = some (s, true)) := by
  have nothing (P : Duty → Prop) : ¬ ∃ t, ∃ d ∈ b.duties t, P d := by simp [free]
  refine ⟨⟨?_, ?_⟩, ⟨?_, ?_⟩⟩
  · intro cached
    obtain ⟨pending, filed⟩ := balanced.symbols s (.inr cached)
    cases pending with
    | true => exact filed
    | false => exact absurd (balanced.settledCached s filed cached) (nothing _)
  · intro filed
    exact (balanced.pendingCached s filed).resolve_right (nothing _)
  · intro listed
    obtain ⟨pending, filed⟩ := balanced.symbols s (.inl listed)
    cases pending with
    | true => exact filed
    | false => exact absurd (balanced.settledListed s filed listed) (nothing _)
  · intro filed
    exact (balanced.pendingListed s filed).resolve_right (nothing _)

end OrderBook

end TradingPlatform
