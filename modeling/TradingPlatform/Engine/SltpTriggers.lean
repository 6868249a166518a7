import TradingPlatform.Engine.IndexInvariant

namespace TradingPlatform

inductive TriggerReason
  | SL
  | TP
  deriving DecidableEq, Repr

/-- The index that a reason is looked up in. -/
def TriggerReason.index : TriggerReason → PriceIndex
  | .SL => .posSl
  | .TP => .posTp

structure SltpTrigger where
  positionId : PositionId
  reason : TriggerReason
  triggerPrice : ℚ
  deriving DecidableEq, Repr

/-- `opened_at` in milliseconds: a number that would be a time between the
years 2000 and 2100 in seconds is taken for one. -/
def openedTimestampMs (openedAt : Millis) : Millis :=
  if 946684800 < openedAt ∧ openedAt < 4102444800 then openedAt * 1000 else openedAt

/-- The position is in its first two seconds, as far as the script can tell. -/
def PositionHash.inGrace (h : PositionHash) (now : Millis) : Bool :=
  h.openedAt.any fun openedAt =>
    0 ≤ now - openedTimestampMs openedAt ∧ now - openedTimestampMs openedAt < 2000

namespace Store
variable (st : Store)

/-- ZRANGEBYSCORE with scores, in some order. -/
def zrangeByScore (k : PriceIndex) (symbol : Symbol) (inRange : ℚ → Bool) : List (PositionId × ℚ) :=
  ((st.index k symbol).entries.filter fun row => inRange row.2).map fun row => (row.1, row.2)

/-- `add_triggered` -/
def addTriggered (filterGroupId : GroupId) (now : Millis) (p : PositionId) (reason : TriggerReason)
    (triggerPrice : ℚ) : Option SltpTrigger :=
  if filterGroupId ≠ "" ∧ (st.hash p).bind (·.groupId) ≠ some filterGroupId then none
  else if (st.hash p).bind (·.status) = some .OPEN then
    if (st.hash p).any (·.inGrace now) then none else some ⟨p, reason, triggerPrice⟩
  else none

/-- One of the four loops: the positions of a side whose level is in the range. -/
def scanTriggers (symbol : Symbol) (filterGroupId : GroupId) (now : Millis)
    (side : PositionSide) (reason : TriggerReason) (inRange : ℚ → Bool) : List SltpTrigger :=
  (st.zrangeByScore reason.index symbol inRange).filterMap fun row =>
    if (st.hash row.1).bind (·.side) = some side then
      st.addTriggered filterGroupId now row.1 reason row.2
    else none

/-- `check_sltp_triggers.lua` at a server time. -/
def checkSltpTriggers (symbol : Symbol) (currentBid currentAsk : ℚ) (filterGroupId : GroupId)
    (now : Millis) : List SltpTrigger :=
  st.scanTriggers symbol filterGroupId now .LONG .SL (fun level => currentBid ≤ level) ++
  st.scanTriggers symbol filterGroupId now .LONG .TP (fun level => level ≤ currentBid) ++
  st.scanTriggers symbol filterGroupId now .SHORT .SL (fun level => level ≤ currentAsk) ++
  st.scanTriggers symbol filterGroupId now .SHORT .TP (fun level => currentAsk ≤ level)

/-- The stop-loss and take-profit indexes of a symbol agree with the hashes:
each member is a position of the symbol with that level, and each open one with
a level is a member. -/
structure LevelsIndexed (symbol : Symbol) : Prop where
  member : ∀ (reason : TriggerReason) p level, st.score reason.index symbol p = some level →
    ∃ h, st.hash p = some h ∧ h.symbol = some symbol ∧ h.level reason.index = some level
  listed : ∀ (reason : TriggerReason) p h level, st.hash p = some h → h.symbol = some symbol →
    h.status = some .OPEN → h.level reason.index = some level →
      st.score reason.index symbol p = some level

end Store

/-- The price has reached the level of a position of this side. -/
def TriggerReason.reached (reason : TriggerReason) (side : PositionSide) (bid ask level : ℚ) : Bool :=
  match side, reason with
  | .LONG, .SL => bid ≤ level
  | .LONG, .TP => level ≤ bid
  | .SHORT, .SL => level ≤ ask
  | .SHORT, .TP => ask ≤ level

variable {st : Store} {symbol : Symbol} {bid ask : ℚ} {g : GroupId} {now : Millis}
  {p : PositionId} {reason : TriggerReason} {side : PositionSide} {inRange : ℚ → Bool}
  {level : ℚ} {h : PositionHash}

namespace Store

theorem mem_zrangeByScore {k : PriceIndex} :
    (p, level) ∈ st.zrangeByScore k symbol inRange ↔
      st.score k symbol p = some level ∧ inRange level = true := by
  unfold zrangeByScore score
  rw [List.mem_map]
  constructor
  · rintro ⟨row, member, same⟩
    obtain ⟨listed, within⟩ := List.mem_filter.mp member
    cases same
    exact ⟨AList.mem_lookup_iff.mpr listed, within⟩
  · rintro ⟨found, within⟩
    exact ⟨⟨p, level⟩, List.mem_filter.mpr ⟨AList.mem_lookup_iff.mp found, within⟩, rfl⟩

theorem zrangeByScore_nodup (k : PriceIndex) :
    ((st.zrangeByScore k symbol inRange).map (·.1)).Nodup := by
  have once : ((st.index k symbol).entries.map (·.1)).Nodup := (st.index k symbol).nodupKeys
  unfold zrangeByScore
  rw [List.map_map]
  exact once.sublist (List.filter_sublist.map _)

/-- The position passes the filters of `add_triggered`. -/
structure Qualifies (h : PositionHash) (g : GroupId) (now : Millis) : Prop where
  group : g = "" ∨ h.groupId = some g
  status : h.status = some .OPEN
  grace : h.inGrace now = false

theorem addTriggered_eq_some {trigger : SltpTrigger} (stored : st.hash p = some h) :
    st.addTriggered g now p reason level = some trigger ↔
      Qualifies h g now ∧ trigger = ⟨p, reason, level⟩ := by
  simp only [addTriggered, stored, Option.bind_some, Option.any_some]
  constructor
  · intro added
    split_ifs at added with other isOpen grace
    refine ⟨⟨?_, isOpen, by simpa using grace⟩, (Option.some.inj added).symm⟩
    by_contra neither
    exact other (by simpa [not_or] using neither)
  · rintro ⟨⟨group, status, grace⟩, rfl⟩
    have same : ¬(g ≠ "" ∧ h.groupId ≠ some g) := by
      rintro ⟨named, others⟩
      exact group.elim named others
    rw [if_neg same, if_pos status, if_neg (by simp [grace])]

/-- A loop returns what its index lists, read beside the hash. -/
theorem mem_scanTriggers_iff {trigger : SltpTrigger} :
    trigger ∈ st.scanTriggers symbol g now side reason inRange ↔
      ∃ h, st.hash trigger.positionId = some h ∧
        st.score reason.index symbol trigger.positionId = some trigger.triggerPrice ∧
        h.side = some side ∧ inRange trigger.triggerPrice = true ∧
        Qualifies h g now ∧ trigger.reason = reason := by
  unfold scanTriggers
  rw [List.mem_filterMap]
  constructor
  · rintro ⟨⟨p, level⟩, found, added⟩
    obtain ⟨scored, within⟩ := mem_zrangeByScore.mp found
    split_ifs at added with ofSide
    obtain ⟨h, stored, isSide⟩ := Option.bind_eq_some_iff.mp ofSide
    obtain ⟨qualifies, rfl⟩ := (addTriggered_eq_some stored).mp added
    exact ⟨h, stored, scored, isSide, within, qualifies, rfl⟩
  · rintro ⟨h, stored, scored, ofSide, within, qualifies, rfl⟩
    refine ⟨(trigger.positionId, trigger.triggerPrice), mem_zrangeByScore.mpr ⟨scored, within⟩, ?_⟩
    simp only [stored, Option.bind_some, ofSide, if_true]
    exact (addTriggered_eq_some stored).mpr ⟨qualifies, rfl⟩

theorem mem_scanTriggers {trigger : SltpTrigger} (indexed : st.LevelsIndexed symbol) :
    trigger ∈ st.scanTriggers symbol g now side reason inRange ↔
      ∃ h, st.hash trigger.positionId = some h ∧ h.symbol = some symbol ∧ h.side = some side ∧
        h.level reason.index = some trigger.triggerPrice ∧ inRange trigger.triggerPrice = true ∧
        Qualifies h g now ∧ trigger.reason = reason := by
  rw [mem_scanTriggers_iff]
  constructor
  · rintro ⟨h, stored, scored, ofSide, within, qualifies, isReason⟩
    obtain ⟨h', stored', ofSymbol, isLevel⟩ := indexed.member reason _ _ scored
    obtain rfl := Option.some.inj (stored.symm.trans stored')
    exact ⟨h, stored, ofSymbol, ofSide, isLevel, within, qualifies, isReason⟩
  · rintro ⟨h, stored, ofSymbol, ofSide, isLevel, within, qualifies, isReason⟩
    have scored := indexed.listed reason trigger.positionId h trigger.triggerPrice stored ofSymbol
      qualifies.status isLevel
    exact ⟨h, stored, scored, ofSide, within, qualifies, isReason⟩

/-- A loop returns a position once. -/
theorem scanTriggers_nodup :
    ((st.scanTriggers symbol g now side reason inRange).map (·.positionId)).Nodup := by
  have kept : ((st.scanTriggers symbol g now side reason inRange).map (·.positionId)).Sublist
      ((st.zrangeByScore reason.index symbol inRange).map (·.1)) := by
    unfold scanTriggers
    induction st.zrangeByScore reason.index symbol inRange with
    | nil => exact .slnil
    | cons row rest ih =>
      rw [List.filterMap_cons]
      split
      next => exact ih.cons _
      next trigger added =>
        have same : trigger.positionId = row.1 := by
          unfold addTriggered at added
          split_ifs at added
          cases added
          rfl
        rw [List.map_cons, List.map_cons, same]
        exact ih.cons_cons _
  exact (zrangeByScore_nodup reason.index).sublist kept

theorem mem_checkSltpTriggers {trigger : SltpTrigger} (indexed : st.LevelsIndexed symbol) :
    trigger ∈ st.checkSltpTriggers symbol bid ask g now ↔
      ∃ h side, st.hash trigger.positionId = some h ∧ h.symbol = some symbol ∧
        h.side = some side ∧ h.level trigger.reason.index = some trigger.triggerPrice ∧
        trigger.reason.reached side bid ask trigger.triggerPrice = true ∧ Qualifies h g now := by
  obtain ⟨p, reason, price⟩ := trigger
  simp only [checkSltpTriggers, List.mem_append, mem_scanTriggers indexed]
  constructor
  · rintro (((⟨h, stored, ofSymbol, ofSide, isLevel, within, qualifies, rfl⟩ |
      ⟨h, stored, ofSymbol, ofSide, isLevel, within, qualifies, rfl⟩) |
      ⟨h, stored, ofSymbol, ofSide, isLevel, within, qualifies, rfl⟩) |
      ⟨h, stored, ofSymbol, ofSide, isLevel, within, qualifies, rfl⟩)
    all_goals exact ⟨h, _, stored, ofSymbol, ofSide, isLevel, within, qualifies⟩
  · rintro ⟨h, side, stored, ofSymbol, ofSide, isLevel, within, qualifies⟩
    cases side <;> cases reason
    · exact .inl (.inl (.inl ⟨h, stored, ofSymbol, ofSide, isLevel, within, qualifies, rfl⟩))
    · exact .inl (.inl (.inr ⟨h, stored, ofSymbol, ofSide, isLevel, within, qualifies, rfl⟩))
    · exact .inl (.inr ⟨h, stored, ofSymbol, ofSide, isLevel, within, qualifies, rfl⟩)
    · exact .inr ⟨h, stored, ofSymbol, ofSide, isLevel, within, qualifies, rfl⟩

/-- The four loops share neither a position of one side nor a reason. -/
theorem checkSltpTriggers_nodup (indexed : st.LevelsIndexed symbol) :
    ((st.checkSltpTriggers symbol bid ask g now).map fun t => (t.positionId, t.reason)).Nodup := by
  have once : ∀ side reason inRange,
      ((st.scanTriggers symbol g now side reason inRange).map
        fun t => (t.positionId, t.reason)).Nodup := by
    intro side reason inRange
    refine List.Nodup.of_map Prod.fst ?_
    rw [List.map_map]
    exact scanTriggers_nodup
  have apart : ∀ side side' reason reason' inRange inRange', (side ≠ side' ∨ reason ≠ reason') →
      ∀ t ∈ st.scanTriggers symbol g now side reason inRange,
        ∀ t' ∈ st.scanTriggers symbol g now side' reason' inRange',
          (t.positionId, t.reason) ≠ (t'.positionId, t'.reason) := by
    intro side side' reason reason' inRange inRange' differ t member t' member' same
    obtain ⟨h, stored, -, ofSide, -, -, -, isReason⟩ := (mem_scanTriggers indexed).mp member
    obtain ⟨h', stored', -, ofSide', -, -, -, isReason'⟩ := (mem_scanTriggers indexed).mp member'
    simp only [Prod.mk.injEq] at same
    rw [same.1, stored'] at stored
    cases stored
    rcases differ with sides | reasons
    · exact sides (Option.some.inj (ofSide.symm.trans ofSide'))
    · exact reasons (isReason.symm.trans (same.2.trans isReason'))
  unfold checkSltpTriggers
  simp only [List.map_append, List.nodup_append, List.mem_append, List.mem_map]
  refine ⟨⟨⟨once .., once .., ?_⟩, once .., ?_⟩, once .., ?_⟩
  · rintro _ ⟨t, member, rfl⟩ _ ⟨t', member', rfl⟩
    exact apart _ _ _ _ _ _ (.inr (by simp)) t member t' member'
  · rintro _ (⟨t, member, rfl⟩ | ⟨t, member, rfl⟩) _ ⟨t', member', rfl⟩
    · exact apart _ _ _ _ _ _ (.inl (by simp)) t member t' member'
    · exact apart _ _ _ _ _ _ (.inl (by simp)) t member t' member'
  · rintro _ ((⟨t, member, rfl⟩ | ⟨t, member, rfl⟩) | ⟨t, member, rfl⟩) _ ⟨t', member', rfl⟩
    · exact apart _ _ _ _ _ _ (.inl (by simp)) t member t' member'
    · exact apart _ _ _ _ _ _ (.inl (by simp)) t member t' member'
    · exact apart _ _ _ _ _ _ (.inr (by simp)) t member t' member'

end Store

/-- The script does not take the time a position was opened at for seconds. -/
def PositionHash.OpenedInMillis (h : PositionHash) : Prop :=
  ∀ openedAt ∈ h.openedAt, ¬(946684800 < openedAt ∧ openedAt < 4102444800)

theorem PositionHash.inGrace_eq_false (millis : h.OpenedInMillis) :
    h.inGrace now = false ↔
      ∀ openedAt ∈ h.openedAt, ¬(0 ≤ now - openedAt ∧ now - openedAt < 2000) := by
  unfold PositionHash.inGrace
  cases opened : h.openedAt with
  | none => simp
  | some openedAt =>
    have kept : openedTimestampMs openedAt = openedAt := if_neg (millis openedAt opened)
    simp [kept]

theorem exists_trigger_iff (indexed : st.LevelsIndexed symbol)
    (millis : ∀ p h, st.hash p = some h → h.OpenedInMillis) (p : PositionId)
    (reason : TriggerReason) :
    (∃ price, ⟨p, reason, price⟩ ∈ st.checkSltpTriggers symbol bid ask g now) ↔
      ∃ h level, st.hash p = some h ∧ h.symbol = some symbol ∧ h.status = some .OPEN ∧
        h.level reason.index = some level ∧ (g = "" ∨ h.groupId = some g) ∧
        (∀ openedAt ∈ h.openedAt, ¬(0 ≤ now - openedAt ∧ now - openedAt < 2000)) ∧
        (h.side = some .LONG ∧ reason.reached .LONG bid ask level = true ∨
          h.side = some .SHORT ∧ reason.reached .SHORT bid ask level = true) := by
  constructor
  · rintro ⟨price, member⟩
    obtain ⟨h, side, stored, ofSymbol, ofSide, isLevel, reached, group, status, grace⟩ :=
      (Store.mem_checkSltpTriggers indexed).mp member
    refine ⟨h, price, stored, ofSymbol, status, isLevel, group,
      (PositionHash.inGrace_eq_false (millis p h stored)).mp grace, ?_⟩
    cases side with
    | LONG => exact .inl ⟨ofSide, reached⟩
    | SHORT => exact .inr ⟨ofSide, reached⟩
  · rintro ⟨h, level, stored, ofSymbol, status, isLevel, group, grace, reached⟩
    have past := (PositionHash.inGrace_eq_false (millis p h stored)).mpr grace
    refine ⟨level, (Store.mem_checkSltpTriggers indexed).mpr ?_⟩
    rcases reached with ⟨ofSide, reached⟩ | ⟨ofSide, reached⟩
    · exact ⟨h, .LONG, stored, ofSymbol, ofSide, isLevel, reached, group, status, past⟩
    · exact ⟨h, .SHORT, stored, ofSymbol, ofSide, isLevel, reached, group, status, past⟩

theorem LevelText.bind_tonumber_eq_some {text : Option LevelText} {x : ℚ} :
    text.bind LevelText.tonumber = some x ↔ text = some (.num x) := by
  match text with
  | none => simp
  | some .null => simp [LevelText.tonumber]
  | some .userdata => simp [LevelText.tonumber]
  | some (.num y) => simp [LevelText.tonumber]

/-- The script returns the open positions of the group that are past their
first two seconds and whose level the price has reached, each once for each of
its two levels. -/
theorem checkSltpTriggers_exact (indexed : st.LevelsIndexed symbol)
    (millis : ∀ p h, st.hash p = some h → h.OpenedInMillis) :
    (∀ p, (∃ price, ⟨p, .SL, price⟩ ∈ st.checkSltpTriggers symbol bid ask g now) ↔
      ∃ h sl, st.hash p = some h ∧ h.symbol = some symbol ∧ h.status = some .OPEN ∧
        h.sl = some (.num sl) ∧ (g = "" ∨ h.groupId = some g) ∧
        (∀ openedAt ∈ h.openedAt, ¬(0 ≤ now - openedAt ∧ now - openedAt < 2000)) ∧
        (h.side = some .LONG ∧ bid ≤ sl ∨ h.side = some .SHORT ∧ sl ≤ ask)) ∧
    (∀ p, (∃ price, ⟨p, .TP, price⟩ ∈ st.checkSltpTriggers symbol bid ask g now) ↔
      ∃ h tp, st.hash p = some h ∧ h.symbol = some symbol ∧ h.status = some .OPEN ∧
        h.tp = some (.num tp) ∧ (g = "" ∨ h.groupId = some g) ∧
        (∀ openedAt ∈ h.openedAt, ¬(0 ≤ now - openedAt ∧ now - openedAt < 2000)) ∧
        (h.side = some .LONG ∧ tp ≤ bid ∨ h.side = some .SHORT ∧ ask ≤ tp)) ∧
    ((st.checkSltpTriggers symbol bid ask g now).map fun t => (t.positionId, t.reason)).Nodup := by
  refine ⟨fun p => ?_, fun p => ?_, Store.checkSltpTriggers_nodup indexed⟩
  · rw [exists_trigger_iff indexed millis]
    simp only [TriggerReason.index, PositionHash.level, LevelText.bind_tonumber_eq_some,
      TriggerReason.reached, decide_eq_true_eq]
  · rw [exists_trigger_iff indexed millis]
    simp only [TriggerReason.index, PositionHash.level, LevelText.bind_tonumber_eq_some,
      TriggerReason.reached, decide_eq_true_eq]

/-- A long position with a stop loss that was opened in 2025. -/
def stoppedHash : PositionHash :=
  { symbol := some "EURUSD", side := some .LONG, size := some 1, entryPrice := some 10,
    status := some .OPEN, groupId := some "a", openedAt := some 1750000000000,
    sl := some (.num 9), tp := some .null }

def stoppedStore : Store :=
  (Store.empty.hset (.uuid 1) fun _ => stoppedHash).zadd .posSl "EURUSD" (.uuid 1) 9

theorem stoppedStore_hash (stored : stoppedStore.hash p = some h) :
    p = .uuid 1 ∧ h = stoppedHash := by
  change (Store.empty.hset (.uuid 1) fun _ => stoppedHash).hash p = some h at stored
  rw [Store.hash_hset] at stored
  split_ifs at stored with same
  · exact ⟨same, (Option.some.inj stored).symm⟩
  · cases stored

theorem stoppedStore_indexed : stoppedStore.LevelsIndexed "EURUSD" := by
  have scores : ∀ (reason : TriggerReason) p, stoppedStore.score reason.index "EURUSD" p =
      if reason = .SL ∧ p = .uuid 1 then some 9 else none := by
    intro reason p
    unfold stoppedStore
    rw [Store.score_zadd]
    cases reason <;> simp [TriggerReason.index, Store.score, Store.empty, Store.hset]
  refine ⟨fun reason p level scored => ?_, fun reason p h level stored _ _ isLevel => ?_⟩
  · rw [scores] at scored
    split_ifs at scored with same
    obtain ⟨rfl, rfl⟩ := same
    cases scored
    exact ⟨stoppedHash, rfl, rfl, rfl⟩
  · obtain ⟨rfl, rfl⟩ := stoppedStore_hash stored
    rw [scores]
    cases reason with
    | SL => simpa [stoppedHash, PositionHash.level, TriggerReason.index, LevelText.tonumber] using isLevel
    | TP => simp [stoppedHash, PositionHash.level, TriggerReason.index, LevelText.tonumber] at isLevel

theorem checkSltpTriggers_of_stop :
    ∃ price, ⟨.uuid 1, .SL, price⟩ ∈
      stoppedStore.checkSltpTriggers "EURUSD" 9 (19 / 2) "a" 1750000002000 := by
  have millis : ∀ p h, stoppedStore.hash p = some h → h.OpenedInMillis := by
    intro p h stored openedAt opened
    obtain ⟨-, rfl⟩ := stoppedStore_hash stored
    cases opened
    norm_num
  have exact : (∃ price, ⟨.uuid 1, .SL, price⟩ ∈
      stoppedStore.checkSltpTriggers "EURUSD" 9 (19 / 2) "a" 1750000002000) ↔ _ :=
    (checkSltpTriggers_exact stoppedStore_indexed millis).1 (.uuid 1)
  refine exact.mpr ⟨stoppedHash, 9, rfl, rfl, rfl, rfl, .inr rfl, ?_, .inl ⟨rfl, le_rfl⟩⟩
  intro openedAt opened
  cases opened
  norm_num

end TradingPlatform
