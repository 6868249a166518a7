import TradingPlatform.Engine.SltpEdits

namespace TradingPlatform

open StepRuns

namespace Store

/-- The level of the position is the one asked for: set and indexed, or gone. -/
def Reflects (st : Store) (p : PositionId) (f : LevelField) : LevelText → Prop
  | .num x => ∃ symbol, (st.levelState f p).Holds symbol x
  | text => (∃ h ∈ st.hash p, h.text f = some text) ∧ ∀ symbol, st.score f.index symbol p = none

/-- As far as the hash and, for a number, the index tell. -/
def Shows (st : Store) (p : PositionId) (f : LevelField) : LevelText → Prop
  | .num x => ∃ symbol, (st.levelState f p).Holds symbol x
  | .null => ∃ view ∈ st.view f p, view.text = some .null
  | .userdata => False

/-- The hash says the level, and its index may not yet. -/
structure Opening (st : Store) (f : LevelField) (p : PositionId) (symbol : Symbol)
    (text : LevelText) : Prop where
  view : ∃ status, st.view f p = some ⟨some symbol, status, some text⟩ ∧
    (text = .null ∨ ∃ x, text = .num x ∧ FiniteF64 x ∧ status = some .OPEN)
  score : ∀ s, s ≠ symbol → st.score f.index s p = none

variable {st after : Store} {p q : PositionId} {f g : LevelField} {symbol : Symbol}
  {text : LevelText}

theorem Shows.of_move (shows : st.Shows p f text)
    (move : LevelMove FiniteF64 (st.levelState f p) (after.levelState f p))
    (kept : after.view f p = st.view f p) : after.Shows p f text := by
  cases text with
  | num x =>
    obtain ⟨symbol, holds⟩ := shows
    exact ⟨symbol, move.holds holds kept⟩
  | null =>
    obtain ⟨view, isView, isNull⟩ := shows
    exact ⟨view, kept ▸ isView, isNull⟩
  | userdata => exact shows

theorem Shows.of_eq (shows : st.Shows p f text) (same : after.levelState f p = st.levelState f p) :
    after.Shows p f text :=
  shows.of_move (same ▸ .refl _) (congrArg LevelState.view same)

theorem Opening.of_eq (opening : st.Opening f p symbol text)
    (same : after.levelState f p = st.levelState f p) : after.Opening f p symbol text where
  view := by
    obtain ⟨status, view, level⟩ := opening.view
    exact ⟨status, (congrArg LevelState.view same).trans view, level⟩
  score s differ := (congrFun (congrArg LevelState.score same) s).trans (opening.score s differ)

/-- With a live index a level that the hash shows is the one asked for. -/
theorem Shows.reflects (shows : st.Shows p f text) (live : (st.levelState f p).Live) :
    st.Reflects p f text := by
  cases text with
  | num x => exact shows
  | null =>
    obtain ⟨view, isView, isNull⟩ := shows
    obtain ⟨h, stored, rfl⟩ := Option.map_eq_some_iff.mp isView
    refine ⟨⟨h, stored, isNull⟩, fun symbol => ?_⟩
    by_contra scored
    obtain ⟨x, isScore⟩ := Option.ne_none_iff_exists'.mp scored
    have same := isView.symm.trans (live symbol x isScore)
    have text := congrArg LevelView.text (Option.some.inj same)
    rw [isNull] at text
    cases text
  | userdata => exact shows.elim

section SetField

theorem setText_view (h : PositionHash) :
    (h.setText text f).view f = { h.view f with text := some text } := by
  cases f <;> rfl

theorem setText_view_ne (h : PositionHash) (differ : g ≠ f) :
    (h.setText text f).view g = h.view g := by
  cases f <;> cases g <;> first | rfl | exact absurd rfl differ

theorem levelState_setField_ne (stored : ∃ h, st.hash p = some h) (differ : ¬ (q = p ∧ g = f)) :
    (st.hset p (·.setText text f)).levelState g q = st.levelState g q := by
  obtain ⟨h, stored⟩ := stored
  refine levelState_eq ?_ fun s => score_hset ..
  rw [hash_hset]
  split_ifs with here
  · subst here
    have other : g ≠ f := fun same => differ ⟨rfl, same⟩
    rw [stored, Option.getD_some, Option.map_some, Option.map_some, setText_view_ne h other]
  · rfl

theorem view_setField {h : PositionHash} (stored : st.hash p = some h) :
    (st.hset p (·.setText text f)).view f p = some { h.view f with text := some text } := by
  unfold Store.view
  rw [hash_hset_self, stored, Option.getD_some, Option.map_some, setText_view]

theorem symbol_setField (h : PositionHash) : (h.setText text f).symbol = h.symbol := by
  cases f <;> rfl

end SetField

section SetIndex

theorem hash_setIndex (indexed : st.setIndex f symbol p text = some after) :
    after.hash = st.hash := by
  cases text with
  | null => cases indexed; rfl
  | userdata => cases indexed
  | num x => cases indexed; rfl

theorem view_setIndex (indexed : st.setIndex f symbol p text = some after) :
    after.view g q = st.view g q := by
  unfold Store.view
  rw [hash_setIndex indexed]

theorem score_setIndex (indexed : st.setIndex f symbol p text = some after) (s : Symbol) :
    after.score g.index s q =
      if g = f ∧ s = symbol ∧ q = p then text.tonumber else st.score g.index s q := by
  have same : g.index = f.index ↔ g = f := by
    cases f <;> cases g <;> simp [LevelField.index]
  cases text with
  | null =>
    cases indexed
    rw [score_zrem]
    simp only [same, LevelText.tonumber]
  | userdata => cases indexed
  | num x =>
    cases indexed
    rw [score_zadd]
    simp only [same, LevelText.tonumber]

theorem levelState_setIndex_ne (indexed : st.setIndex f symbol p text = some after)
    (differ : ¬ (q = p ∧ g = f)) : after.levelState g q = st.levelState g q := by
  refine LevelState.ext (view_setIndex indexed) (funext fun s => ?_)
  change after.score g.index s q = st.score g.index s q
  rw [score_setIndex indexed, if_neg fun same => differ ⟨same.2.2, same.1⟩]

theorem Placed.setIndex {P : ℚ → Prop} (placed : st.Placed P)
    (indexed : st.setIndex f symbol p text = some after) : after.Placed P := by
  cases text with
  | null =>
    cases indexed
    exact ⟨placed.hashesOnly, placed.orders⟩
  | userdata => cases indexed
  | num x =>
    cases indexed
    exact ⟨placed.hashesOnly, placed.orders⟩

/-- With its index set the level is live. -/
theorem Opening.live (opening : st.Opening f p symbol text)
    (indexed : st.setIndex f symbol p text = some after) : (after.levelState f p).Live := by
  obtain ⟨status, view, level⟩ := opening.view
  intro s x scored
  have read : after.score f.index s p = some x := scored
  rw [score_setIndex indexed] at read
  have shows : (after.levelState f p).view = _ := (view_setIndex indexed).trans view
  by_cases here : s = symbol
  · subst here
    rw [if_pos ⟨rfl, rfl, rfl⟩] at read
    rw [shows]
    rcases level with rfl | ⟨y, rfl, -, rfl⟩
    · cases read
    · cases read
      rfl
  · rw [if_neg fun same => here same.2.1, opening.score s here] at read
    cases read

theorem Opening.shows (opening : st.Opening f p symbol text)
    (indexed : st.setIndex f symbol p text = some after) : after.Shows p f text := by
  obtain ⟨status, view, level⟩ := opening.view
  have shows : after.view f p = _ := (view_setIndex indexed).trans view
  rcases level with rfl | ⟨x, rfl, -, rfl⟩
  · exact ⟨_, shows, rfl⟩
  · refine ⟨symbol, shows, ?_⟩
    change after.score f.index symbol p = some x
    rw [score_setIndex indexed, if_pos ⟨rfl, rfl, rfl⟩]
    rfl

/-- What the hash shows stays shown when its index is set to the same level. -/
theorem Shows.setIndex {other : LevelText} (shows : st.Shows p f other)
    (opening : st.Opening f p symbol text) (indexed : st.setIndex f symbol p text = some after) :
    after.Shows p f other := by
  obtain ⟨status, view, -⟩ := opening.view
  have same : other = text := by
    cases other with
    | num x =>
      obtain ⟨s, holds, -⟩ := shows
      have views := congrArg LevelView.text (Option.some.inj (holds.symm.trans view))
      exact Option.some.inj views
    | null =>
      obtain ⟨seen, isView, isNull⟩ := shows
      have views := congrArg LevelView.text (Option.some.inj (isView.symm.trans view))
      exact Option.some.inj (isNull.symm.trans views)
    | userdata => exact shows.elim
  rw [same]
  exact opening.shows indexed

end SetIndex

end Store

namespace SltpDesk
variable (parse : String → Option ParsedF64)

/-- No edit of the position is running. -/
def Idle (s : SltpDesk) (p : PositionId) : Prop := ∀ t, ∀ r ∈ s.calls t, r.call.positionId ≠ p

/-- An edit has written the level to the hash and not yet to the index. -/
def Window (s : SltpDesk) (p : PositionId) (f : LevelField) : Prop :=
  ∃ t, ∃ r ∈ s.calls t, r.call.positionId = p ∧ ∃ symbol text, r.stage = .setIndex f symbol text

/-- Edits that were refused wrote nothing. Once the edits of a position are
done, its accepted levels are set and indexed, and only an open position is
indexed, under the finite level of its hash. -/
structure InForce (s : SltpDesk) : Prop where
  silent : ∀ answer ∈ s.answers, answer.success = false → answer.wrote = false
  accepted : ∀ p f, s.Idle p → ∀ text ∈ s.accepted p f, s.store.Reflects p f text
  live : ∀ p (f : LevelField), s.Idle p → ∀ symbol, ∀ x ∈ s.store.score f.index symbol p,
    FiniteF64 x ∧ ∃ h ∈ s.store.hash p, h.symbol = some symbol ∧ h.status = some .OPEN ∧
      h.text f = some (.num x)

/-- The steps that keep the levels in force. -/
def Careful (s : SltpDesk) : SltpAction → Prop
  | .edit _ _ _ => True
  | .advance t _ => ∀ r ∈ s.calls t, ∀ f symbol, r.stage = .setField f symbol →
    r.call.req.level f ≠ none → (requested parse r.call f = none → r.wrote = false) ∧
      ∀ text ∈ requested parse r.call f, ¬ s.Window r.call.positionId f ∧
        (text = .null ∨ ∃ x, text = .num x ∧ FiniteF64 x ∧
          ∃ h ∈ s.store.hash r.call.positionId, h.status = some .OPEN)
  | .fail t => ∀ r ∈ s.calls t, r.wrote = false
  | .script call => s.store.CallMerges call ∧ ∀ after ∈ s.store.call call, ∀ p f, s.Window p f →
    after.levelState f p = s.store.levelState f p
  | .modifyPositionSltp permitted _ stopLoss takeProfit =>
    permitted → stopLoss = none ∧ takeProfit = none

/-- What is known of a running call. -/
structure Running (st : Store) (r : RunningSltp) : Prop where
  fresh : r.stage = .getUserId ∨ r.stage = .getSymbol → r.wrote = false
  known : ∀ f symbol, r.stage = .setField f symbol →
    ∃ h ∈ st.hash r.call.positionId, h.symbol = some symbol
  stored : r.stage = .setUpdatedAt → ∃ h, st.hash r.call.positionId = some h
  window : ∀ f symbol text, r.stage = .setIndex f symbol text →
    st.Opening f r.call.positionId symbol text ∧ requested parse r.call f = some text
  past : r.disturbed = false → ∀ f, r.stage.past f = true → ∀ text ∈ requested parse r.call f,
    st.Shows r.call.positionId f text
  wrote : ∀ f symbol text, r.stage = .setIndex f symbol text → r.wrote = true

structure Sound (s : SltpDesk) : Prop where
  placed : s.store.Placed FiniteF64
  within : ∀ f p, (s.store.levelState f p).Within FiniteF64
  live : ∀ p f, ¬ s.Window p f → (s.store.levelState f p).Live
  calls : ∀ t, ∀ r ∈ s.calls t, Running parse s.store r
  sole : ∀ t r t' r', r ∈ s.calls t → r' ∈ s.calls t' → r.call.positionId = r'.call.positionId →
    ∀ f symbol text symbol' text', r.stage = .setIndex f symbol text →
      r'.stage = .setIndex f symbol' text' → t = t'
  accepted : ∀ p f, ∀ text ∈ s.accepted p f, s.store.Shows p f text
  silent : ∀ answer ∈ s.answers, answer.success = false → answer.wrote = false

section Steps
variable {parse} {s after : SltpDesk} {t : ℕ} {r : RunningSltp}

theorem Sound.inForce (sound : s.Sound parse) : s.InForce where
  silent := sound.silent
  accepted p f idle text isAccepted := by
    refine (sound.accepted p f text isAccepted).reflects (sound.live p f ?_)
    rintro ⟨t, r, running, same, -⟩
    exact idle t r running same
  live p f idle symbol x scored := by
    have live : (s.store.levelState f p).Live := by
      refine sound.live p f ?_
      rintro ⟨t, r, running, same, -⟩
      exact idle t r running same
    have view := live symbol x scored
    obtain ⟨h, stored, isView⟩ := Option.map_eq_some_iff.mp view
    refine ⟨sound.within f p _ view x rfl, h, stored, ?_, ?_, ?_⟩
    · exact congrArg LevelView.symbol isView
    · exact congrArg LevelView.status isView
    · exact congrArg LevelView.text isView

/-- Only the levels and the symbol of its position matter to a running call. -/
theorem Running.of_eq {st later : Store} (running : Running parse st r)
    (hash : ∀ h ∈ st.hash r.call.positionId, ∃ h' ∈ later.hash r.call.positionId,
      h'.symbol = h.symbol)
    (same : ∀ f, later.levelState f r.call.positionId = st.levelState f r.call.positionId) :
    Running parse later r where
  fresh := running.fresh
  known f symbol isStage := by
    obtain ⟨h, stored, isSymbol⟩ := running.known f symbol isStage
    obtain ⟨h', stored', kept⟩ := hash h stored
    exact ⟨h', stored', kept.trans isSymbol⟩
  stored isStage := by
    obtain ⟨h, stored⟩ := running.stored isStage
    obtain ⟨h', stored', -⟩ := hash h stored
    exact ⟨h', stored'⟩
  window f symbol text isStage := by
    obtain ⟨opening, asked⟩ := running.window f symbol text isStage
    exact ⟨opening.of_eq (same f), asked⟩
  past calm f isPast text asked := (running.past calm f isPast text asked).of_eq (same f)
  wrote := running.wrote

/-- A call takes a step that writes nothing. -/
theorem Sound.goOn (sound : s.Sound parse) (running : r ∈ s.calls t) {stage : SltpStage}
    (outside : ∀ f symbol text, stage ≠ .setIndex f symbol text)
    (closed : ∀ f symbol text, r.stage ≠ .setIndex f symbol text)
    (goes : Running parse s.store { r with stage := stage }) : (s.goOn t r stage).Sound parse := by
  have calls (u : ℕ) (other : RunningSltp) (isCall : other ∈ (s.goOn t r stage).calls u) :
      (u = t ∧ other = { r with stage := stage }) ∨ (u ≠ t ∧ other ∈ s.calls u) := by
    by_cases own : u = t
    · subst own
      have same : { r with stage := stage } = other := by simpa [SltpDesk.goOn] using isCall
      exact .inl ⟨rfl, same.symm⟩
    · exact .inr ⟨own, by simpa [SltpDesk.goOn, own] using isCall⟩
  refine ⟨sound.placed, sound.within, ?_, ?_, ?_, sound.accepted, sound.silent⟩
  · intro p f noWindow
    refine sound.live p f ?_
    rintro ⟨u, other, isCall, same, symbol, text, isStage⟩
    refine noWindow ⟨u, other, ?_, same, symbol, text, isStage⟩
    by_cases own : u = t
    · subst own
      cases Option.some.inj (running.symm.trans isCall)
      exact absurd isStage (closed f symbol text)
    · simpa [SltpDesk.goOn, own] using isCall
  · intro u other isCall
    rcases calls u other isCall with ⟨-, rfl⟩ | ⟨-, kept⟩
    · exact goes
    · exact sound.calls u other kept
  · intro u other u' other' isCall isCall' same f symbol text symbol' text' isStage isStage'
    rcases calls u other isCall with ⟨-, rfl⟩ | ⟨-, kept⟩
    · exact absurd isStage (outside f symbol text)
    · rcases calls u' other' isCall' with ⟨-, rfl⟩ | ⟨-, kept'⟩
      · exact absurd isStage' (outside f symbol' text')
      · exact sound.sole u other u' other' kept kept' same f symbol text symbol' text' isStage
          isStage'

/-- A call that is not in between two writes of a level ends. -/
theorem Sound.answer (sound : s.Sound parse) {success : Bool} (running : r ∈ s.calls t)
    (closed : ∀ f symbol text, r.stage ≠ .setIndex f symbol text)
    (silent : success = false → r.wrote = false) : (s.answer t r success).Sound parse := by
  have calls (u : ℕ) (other : RunningSltp) (isCall : other ∈ (s.answer t r success).calls u) :
      u ≠ t ∧ other ∈ s.calls u := by
    by_cases own : u = t
    · subst own
      simp [SltpDesk.answer] at isCall
    · exact ⟨own, by simpa [SltpDesk.answer, own] using isCall⟩
  refine ⟨sound.placed, sound.within, ?_, ?_, ?_, sound.accepted, ?_⟩
  · intro p f noWindow
    refine sound.live p f ?_
    rintro ⟨u, other, isCall, same, symbol, text, isStage⟩
    refine noWindow ⟨u, other, ?_, same, symbol, text, isStage⟩
    by_cases own : u = t
    · subst own
      cases Option.some.inj (running.symm.trans isCall)
      exact absurd isStage (closed f symbol text)
    · simpa [SltpDesk.answer, own] using isCall
  · intro u other isCall
    exact sound.calls u other (calls u other isCall).2
  · intro u other u' other' isCall isCall'
    exact sound.sole u other u' other' (calls u other isCall).2 (calls u' other' isCall').2
  · intro answer isAnswer refused
    rcases List.mem_cons.mp isAnswer with rfl | before
    · exact silent refused
    · exact sound.silent answer before refused

/-- A store with the same levels and symbols. -/
theorem Sound.setStore (sound : s.Sound parse) {store : Store} (placed : store.Placed FiniteF64)
    (same : ∀ f p, store.levelState f p = s.store.levelState f p)
    (hash : ∀ p, ∀ h ∈ s.store.hash p, ∃ h' ∈ store.hash p, h'.symbol = h.symbol) :
    Sound parse { s with store := store } where
  placed := placed
  within f p := by
    rw [same]
    exact sound.within f p
  live p f noWindow := by
    rw [same]
    exact sound.live p f noWindow
  calls t r running := (sound.calls t r running).of_eq (hash _) fun f => same f _
  sole := sound.sole
  accepted p f text isAccepted := (sound.accepted p f text isAccepted).of_eq (same f p)
  silent := sound.silent

/-- A call is about to write a level that it may write. -/
structure SetsField (parse : String → Option ParsedF64) (s : SltpDesk) (t : ℕ) (r : RunningSltp)
    (f : LevelField) (symbol : Symbol) (text : LevelText) : Prop where
  running : r ∈ s.calls t
  isStage : r.stage = .setField f symbol
  asked : requested parse r.call f = some text
  noWindow : ¬ s.Window r.call.positionId f
  level : text = .null ∨ ∃ x, text = .num x ∧ FiniteF64 x ∧
    ∃ h ∈ s.store.hash r.call.positionId, h.status = some .OPEN

namespace SetsField
variable {f g : LevelField} {symbol : Symbol} {text : LevelText} {p : PositionId} {u : ℕ}
  {other : RunningSltp}

theorem stored (sets : SetsField parse s t r f symbol text) (sound : s.Sound parse) :
    ∃ h ∈ s.store.hash r.call.positionId, h.symbol = some symbol :=
  (sound.calls t r sets.running).known f symbol sets.isStage

theorem levelState (sets : SetsField parse s t r f symbol text) (sound : s.Sound parse)
    (differ : ¬ (p = r.call.positionId ∧ g = f)) :
    (s.setField t r f symbol text).store.levelState g p = s.store.levelState g p := by
  obtain ⟨h, stored, -⟩ := sets.stored sound
  exact Store.levelState_setField_ne ⟨h, stored⟩ differ

/-- The call's own new stage, and the others with their marks. -/
theorem calls
    (isCall : other ∈ (s.setField t r f symbol text).calls u) :
    (u = t ∧ other = { r with stage := .setIndex f symbol text, wrote := true }) ∨
      (u ≠ t ∧ ∃ r' ∈ s.calls u, other = { r' with
        disturbed := r'.disturbed || decide (r'.call.positionId = r.call.positionId) }) := by
  by_cases own : u = t
  · have same : { r with stage := .setIndex f symbol text, wrote := true } = other := by
      simpa [SltpDesk.setField, own] using isCall
    exact .inl ⟨own, same.symm⟩
  · have mapped : ∃ r', s.calls u = some r' ∧ { r' with
        disturbed := r'.disturbed || decide (r'.call.positionId = r.call.positionId) } = other := by
      simpa [SltpDesk.setField, own] using isCall
    obtain ⟨r', isCall', same⟩ := mapped
    exact .inr ⟨own, r', isCall', same.symm⟩

theorem window (sets : SetsField parse s t r f symbol text) :
    (s.setField t r f symbol text).Window p g ↔
      (p = r.call.positionId ∧ g = f) ∨ s.Window p g := by
  constructor
  · rintro ⟨u, other, isCall, rfl, symbol', text', stage⟩
    rcases calls isCall with ⟨-, rfl⟩ | ⟨-, r', isCall', rfl⟩
    · cases stage
      exact .inl ⟨rfl, rfl⟩
    · exact .inr ⟨u, r', isCall', rfl, symbol', text', stage⟩
  · rintro (⟨rfl, rfl⟩ | ⟨u, other, isCall, rfl, symbol', text', stage⟩)
    · refine ⟨t, { r with stage := .setIndex g symbol text, wrote := true }, ?_, rfl, symbol, text,
        rfl⟩
      simp [SltpDesk.setField]
    · have own : u ≠ t := by
        rintro rfl
        cases Option.some.inj (sets.running.symm.trans isCall)
        rw [sets.isStage] at stage
        cases stage
      refine ⟨u, { other with
        disturbed := other.disturbed || decide (other.call.positionId = r.call.positionId) }, ?_,
        rfl, symbol', text', stage⟩
      have isSome : s.calls u = some other := isCall
      simp [SltpDesk.setField, own, isSome]

theorem opening (sets : SetsField parse s t r f symbol text) (sound : s.Sound parse) :
    (s.setField t r f symbol text).store.Opening f r.call.positionId symbol text := by
  obtain ⟨h, stored, isSymbol⟩ := sets.stored sound
  have view : (s.setField t r f symbol text).store.view f r.call.positionId =
      some { h.view f with text := some text } := Store.view_setField stored
  have symbolView : ({ h.view f with text := some text } : LevelView) =
      ⟨some symbol, h.status, some text⟩ := by
    rw [← isSymbol]
    rfl
  refine ⟨⟨h.status, view.trans (congrArg some symbolView), ?_⟩, ?_⟩
  · rcases sets.level with isNull | ⟨x, isNum, finite, h', stored', isOpen⟩
    · exact .inl isNull
    · cases Option.some.inj (stored.symm.trans stored')
      exact .inr ⟨x, isNum, finite, isOpen⟩
  · intro s' differ
    by_contra scored
    obtain ⟨x, isScore⟩ := Option.ne_none_iff_exists'.mp scored
    have live := sound.live r.call.positionId f sets.noWindow s' x isScore
    obtain ⟨h', stored', same⟩ := Option.map_eq_some_iff.mp live
    cases Option.some.inj (stored.symm.trans stored')
    have known : h.symbol = some s' := congrArg LevelView.symbol same
    exact differ (Option.some.inj (known.symm.trans isSymbol))

theorem within (sets : SetsField parse s t r f symbol text) (sound : s.Sound parse) :
    ((s.setField t r f symbol text).store.levelState g p).Within FiniteF64 := by
  by_cases here : p = r.call.positionId ∧ g = f
  · obtain ⟨rfl, rfl⟩ := here
    obtain ⟨status, view, -⟩ := (sets.opening sound).view
    intro seen isView x isText
    cases Option.some.inj (view.symm.trans isView)
    rcases sets.level with rfl | ⟨y, rfl, finite, -⟩
    · cases isText
    · cases isText
      exact finite
  · rw [sets.levelState sound here]
    exact sound.within g p

theorem own (sets : SetsField parse s t r f symbol text) (sound : s.Sound parse) :
    Running parse (s.setField t r f symbol text).store
      { r with stage := .setIndex f symbol text, wrote := true } := by
  refine ⟨by simp, by simp, by simp, ?_, ?_, fun _ _ _ _ => rfl⟩
  · intro g symbol' text' stage
    cases stage
    exact ⟨sets.opening sound, sets.asked⟩
  · intro calm g isPast other askedOther
    have differ : ¬ (r.call.positionId = r.call.positionId ∧ g = f) := by
      rintro ⟨-, rfl⟩
      cases g <;> cases isPast
    have before : r.stage.past g = true := by
      rw [sets.isStage]
      cases f <;> cases g <;> first | rfl | cases isPast
    have shows := (sound.calls t r sets.running).past calm g before other askedOther
    exact shows.of_eq (sets.levelState sound differ)

/-- A call for the same position is marked, and its window is for the other level. -/
theorem others (sets : SetsField parse s t r f symbol text) (sound : s.Sound parse)
    (isCall : other ∈ s.calls u) : Running parse (s.setField t r f symbol text).store
      { other with
        disturbed := other.disturbed || decide (other.call.positionId = r.call.positionId) } := by
  obtain ⟨h, stored, isSymbol⟩ := sets.stored sound
  have earlier := sound.calls u other isCall
  have hash : ∀ h' ∈ s.store.hash other.call.positionId,
      ∃ g ∈ (s.setField t r f symbol text).store.hash other.call.positionId,
        g.symbol = h'.symbol := by
    intro h' stored'
    by_cases same : other.call.positionId = r.call.positionId
    · rw [same] at stored' ⊢
      refine ⟨_, Store.hash_hset_self .., ?_⟩
      cases Option.some.inj (stored.symm.trans stored')
      rw [stored, Option.getD_some]
      exact Store.symbol_setField h
    · exact ⟨h', (Store.hash_hset_ne _ _ _ _ same).trans stored', rfl⟩
  refine ⟨earlier.fresh, ?_, ?_, ?_, ?_, earlier.wrote⟩
  · intro g symbol' stage
    obtain ⟨h', stored', known⟩ := earlier.known g symbol' stage
    obtain ⟨h'', stored'', kept⟩ := hash h' stored'
    exact ⟨h'', stored'', kept.trans known⟩
  · intro stage
    obtain ⟨h', stored'⟩ := earlier.stored stage
    obtain ⟨h'', stored'', -⟩ := hash h' stored'
    exact ⟨h'', stored''⟩
  · intro g symbol' text' stage
    have differ : ¬ (other.call.positionId = r.call.positionId ∧ g = f) := by
      rintro ⟨same, rfl⟩
      exact sets.noWindow ⟨u, other, isCall, same, symbol', text', stage⟩
    obtain ⟨opening, askedOther⟩ := earlier.window g symbol' text' stage
    exact ⟨opening.of_eq (sets.levelState sound differ), askedOther⟩
  · intro calm g isPast other' askedOther
    obtain ⟨before, apart⟩ := Bool.or_eq_false_iff.mp calm
    have differ : ¬ (other.call.positionId = r.call.positionId ∧ g = f) :=
      fun same => of_decide_eq_false apart same.1
    exact (earlier.past before g isPast other' askedOther).of_eq (sets.levelState sound differ)

theorem sound (sets : SetsField parse s t r f symbol text) (sound : s.Sound parse) :
    (s.setField t r f symbol text).Sound parse := by
  refine ⟨⟨sound.placed.hashesOnly, sound.placed.orders⟩, fun g p => sets.within sound, ?_, ?_, ?_,
    ?_, sound.silent⟩
  · intro p g outside
    rw [sets.window, not_or] at outside
    rw [sets.levelState sound outside.1]
    exact sound.live p g outside.2
  · intro u other isCall
    rcases calls isCall with ⟨-, rfl⟩ | ⟨-, r', isCall', rfl⟩
    · exact sets.own sound
    · exact sets.others sound isCall'
  · intro u other u' other' isCall isCall' same g symbol₁ text₁ symbol₂ text₂ stage stage'
    rcases calls isCall with ⟨rfl, rfl⟩ | ⟨-, r₁, isCall₁, rfl⟩
    · rcases calls isCall' with ⟨rfl, -⟩ | ⟨-, r₂, isCall₂, rfl⟩
      · rfl
      · cases stage
        exact absurd ⟨u', r₂, isCall₂, same.symm, symbol₂, text₂, stage'⟩ sets.noWindow
    · rcases calls isCall' with ⟨rfl, rfl⟩ | ⟨-, r₂, isCall₂, rfl⟩
      · cases stage'
        exact absurd ⟨u, r₁, isCall₁, same, symbol₁, text₁, stage⟩ sets.noWindow
      · exact sound.sole u r₁ u' r₂ isCall₁ isCall₂ same g symbol₁ text₁ symbol₂ text₂ stage stage'
  · intro p g text' isAccepted
    by_cases here : p = r.call.positionId ∧ g = f
    · obtain ⟨rfl, rfl⟩ := here
      simp [SltpDesk.setField] at isAccepted
    · have kept : text' ∈ s.accepted p g := by
        by_cases samePosition : p = r.call.positionId
        · have differ : g ≠ f := fun same => here ⟨samePosition, same⟩
          subst samePosition
          simpa [SltpDesk.setField, differ] using isAccepted
        · simpa [SltpDesk.setField, samePosition] using isAccepted
      exact (sound.accepted p g text' kept).of_eq (sets.levelState sound here)

end SetsField

/-- A call sets the index of the level that it has written. -/
structure SetsIndex (s : SltpDesk) (t : ℕ) (r : RunningSltp) (f : LevelField) (symbol : Symbol)
    (text : LevelText) (store : Store) : Prop where
  running : r ∈ s.calls t
  isStage : r.stage = .setIndex f symbol text
  indexed : s.store.setIndex f symbol r.call.positionId text = some store

namespace SetsIndex
variable {f g : LevelField} {symbol : Symbol} {text other : LevelText} {p : PositionId} {u : ℕ}
  {store : Store} {r' : RunningSltp}

theorem opening (sets : SetsIndex s t r f symbol text store) (sound : s.Sound parse) :
    s.store.Opening f r.call.positionId symbol text ∧ requested parse r.call f = some text :=
  (sound.calls t r sets.running).window f symbol text sets.isStage

theorem levelState (sets : SetsIndex s t r f symbol text store)
    (differ : ¬ (p = r.call.positionId ∧ g = f)) :
    store.levelState g p = s.store.levelState g p :=
  Store.levelState_setIndex_ne sets.indexed differ

theorem shows (sets : SetsIndex s t r f symbol text store) (sound : s.Sound parse)
    (before : s.store.Shows p g other) : store.Shows p g other := by
  by_cases here : p = r.call.positionId ∧ g = f
  · obtain ⟨rfl, rfl⟩ := here
    exact before.setIndex (sets.opening sound).1 sets.indexed
  · exact before.of_eq (sets.levelState here)

/-- The call goes on, with the level set and indexed. -/
theorem own (sets : SetsIndex s t r f symbol text store) (sound : s.Sound parse) :
    Running parse store { r with stage := .next f symbol } := by
  obtain ⟨opening, asked⟩ := sets.opening sound
  have earlier := sound.calls t r sets.running
  have stored : ∃ h ∈ store.hash r.call.positionId, h.symbol = some symbol := by
    obtain ⟨status, view, -⟩ := opening.view
    obtain ⟨h, stored, same⟩ := Option.map_eq_some_iff.mp view
    refine ⟨h, ?_, congrArg LevelView.symbol same⟩
    rw [Store.hash_setIndex sets.indexed]
    exact stored
  refine ⟨?_, ?_, ?_, ?_, ?_, by cases f <;> simp [SltpStage.next]⟩
  · cases f <;> simp [SltpStage.next]
  · intro g symbol' stage
    cases f <;> cases stage
    exact stored
  · intro stage
    obtain ⟨h, found, -⟩ := stored
    exact ⟨h, found⟩
  · intro g symbol' text' stage
    cases f <;> cases stage
  · intro calm g isPast other askedOther
    by_cases same : g = f
    · subst same
      cases Option.some.inj (asked.symm.trans askedOther)
      exact opening.shows sets.indexed
    · have before : r.stage.past g = true := by
        rw [sets.isStage]
        cases f <;> cases g <;> first | rfl | exact absurd rfl same | cases isPast
      exact sets.shows sound (earlier.past calm g before other askedOther)

theorem others (sets : SetsIndex s t r f symbol text store) (sound : s.Sound parse)
    (isCall : r' ∈ s.calls u) (own : u ≠ t) : Running parse store r' := by
  have earlier := sound.calls u r' isCall
  refine ⟨earlier.fresh, ?_, ?_, ?_, ?_, earlier.wrote⟩
  · rw [Store.hash_setIndex sets.indexed]
    exact earlier.known
  · rw [Store.hash_setIndex sets.indexed]
    exact earlier.stored
  · intro g symbol' text' stage
    obtain ⟨opening, asked⟩ := earlier.window g symbol' text' stage
    have differ : ¬ (r'.call.positionId = r.call.positionId ∧ g = f) := by
      rintro ⟨same, rfl⟩
      exact own (sound.sole u r' t r isCall sets.running same g symbol' text' symbol text stage
        sets.isStage)
    exact ⟨opening.of_eq (sets.levelState differ), asked⟩
  · intro calm g isPast other asked
    exact sets.shows sound (earlier.past calm g isPast other asked)

theorem sound (sets : SetsIndex s t r f symbol text store) (sound : s.Sound parse) :
    ({ s with store := store }.goOn t r (.next f symbol)).Sound parse := by
  obtain ⟨opening, asked⟩ := sets.opening sound
  have calls {u : ℕ} {r' : RunningSltp}
      (isCall : r' ∈ ({ s with store := store }.goOn t r (.next f symbol)).calls u) :
      (u = t ∧ r' = { r with stage := .next f symbol }) ∨ (u ≠ t ∧ r' ∈ s.calls u) := by
    by_cases own : u = t
    · have same : { r with stage := .next f symbol } = r' := by
        simpa [SltpDesk.goOn, own] using isCall
      exact .inl ⟨own, same.symm⟩
    · exact .inr ⟨own, by simpa [SltpDesk.goOn, own] using isCall⟩
  have outside {g : LevelField} {symbol' : Symbol} {text' : LevelText} :
      SltpStage.next f symbol ≠ .setIndex g symbol' text' := by
    cases f <;> simp [SltpStage.next]
  refine ⟨sound.placed.setIndex sets.indexed, ?_, ?_, ?_, ?_, ?_, sound.silent⟩
  · intro g p
    have view : (store.levelState g p).view = (s.store.levelState g p).view :=
      Store.view_setIndex sets.indexed
    intro seen isView
    exact sound.within g p seen (view ▸ isView)
  · intro p g noWindow
    by_cases here : p = r.call.positionId ∧ g = f
    · obtain ⟨rfl, rfl⟩ := here
      exact opening.live sets.indexed
    · change (store.levelState g p).Live
      rw [sets.levelState here]
      refine sound.live p g ?_
      rintro ⟨u, r', isCall, rfl, symbol', text', stage⟩
      have own : u ≠ t := by
        rintro rfl
        cases Option.some.inj (sets.running.symm.trans isCall)
        rw [sets.isStage] at stage
        cases stage
        exact here ⟨rfl, rfl⟩
      refine noWindow ⟨u, r', ?_, rfl, symbol', text', stage⟩
      simpa [SltpDesk.goOn, own] using isCall
  · intro u r' isCall
    rcases calls isCall with ⟨-, rfl⟩ | ⟨own, kept⟩
    · exact sets.own sound
    · exact sets.others sound kept own
  · intro u r₁ u' r₂ isCall isCall' same g symbol₁ text₁ symbol₂ text₂ stage stage'
    rcases calls isCall with ⟨-, rfl⟩ | ⟨-, kept⟩
    · exact absurd stage outside
    · rcases calls isCall' with ⟨-, rfl⟩ | ⟨-, kept'⟩
      · exact absurd stage' outside
      · exact sound.sole u r₁ u' r₂ kept kept' same g symbol₁ text₁ symbol₂ text₂ stage stage'
  · intro p g text' isAccepted
    exact sets.shows sound (sound.accepted p g text' isAccepted)

end SetsIndex

/-- The last command changes no level, and the call is answered. -/
theorem Sound.setUpdatedAt (sound : s.Sound parse) (running : r ∈ s.calls t)
    (isStage : r.stage = .setUpdatedAt) (now : Millis) :
    (s.advanceCall parse t r now .setUpdatedAt).Sound parse := by
  obtain ⟨h, stored⟩ := (sound.calls t r running).stored isStage
  have same (f : LevelField) (p : PositionId) : (s.store.hset r.call.positionId fun h =>
      { h with updatedAt := some now }).levelState f p = s.store.levelState f p := by
    refine Store.levelState_hset ?_ f p
    intro f
    rw [stored, Option.getD_some, Option.map_some, Option.some.injEq]
    cases f <;> rfl
  have touched : Sound parse { s with store := s.store.hset r.call.positionId fun h =>
      { h with updatedAt := some now } } := by
    refine sound.setStore ⟨sound.placed.hashesOnly, sound.placed.orders⟩ same ?_
    intro p h' stored'
    by_cases here : p = r.call.positionId
    · subst here
      refine ⟨_, Store.hash_hset_self .., ?_⟩
      rw [stored']
      rfl
    · exact ⟨h', (Store.hash_hset_ne _ _ _ _ here).trans stored', rfl⟩
  have accepted : Sound parse { s with
      store := s.store.hset r.call.positionId fun h => { h with updatedAt := some now }
      accepted := if r.disturbed then s.accepted else Function.update s.accepted r.call.positionId
        fun f => (requested parse r.call f).or (s.accepted r.call.positionId f) } := by
    refine ⟨touched.placed, touched.within, touched.live, touched.calls, touched.sole, ?_,
      touched.silent⟩
    intro p f text isAccepted
    have either : text ∈ s.accepted p f ∨
        (r.disturbed = false ∧ p = r.call.positionId ∧ text ∈ requested parse r.call f) := by
      by_cases disturbed : r.disturbed = true
      · exact .inl (by simpa [disturbed] using isAccepted)
      · by_cases here : p = r.call.positionId
        · subst here
          have either : requested parse r.call f = some text ∨
              (requested parse r.call f = none ∧ s.accepted r.call.positionId f = some text) := by
            simpa [disturbed, Option.or_eq_some_iff] using isAccepted
          rcases either with asked | ⟨-, before⟩
          · exact .inr ⟨by simpa using disturbed, rfl, asked⟩
          · exact .inl before
        · exact .inl (by simpa [disturbed, here] using isAccepted)
    rcases either with before | ⟨calm, rfl, asked⟩
    · exact touched.accepted p f text before
    · have shows := (sound.calls t r running).past calm f (by rw [isStage]; cases f <;> rfl) text asked
      exact shows.of_eq (same f _)
  have closed : ∀ f symbol text, r.stage ≠ .setIndex f symbol text := by simp [isStage]
  exact accepted.answer running closed nofun

/-- A script that leaves the open windows alone moves the other levels. -/
theorem Sound.script (sound : s.Sound parse) {call : ScriptCall} {store : Store}
    (within : Store.CallWithin FiniteF64 call) (merges : s.store.CallMerges call)
    (taken : s.store.call call = some store)
    (apart : ∀ p f, s.Window p f → store.levelState f p = s.store.levelState f p) :
    (s.afterScript store).Sound parse := by
  have moves (f : LevelField) (p : PositionId) :
      LevelMove FiniteF64 (s.store.levelState f p) (store.levelState f p) :=
    Store.call_levelMove sound.placed within merges taken f p
  have hash (p : PositionId) : ∀ h ∈ s.store.hash p, ∃ h' ∈ store.hash p, h'.symbol = h.symbol := by
    intro h stored
    have seen : h.view .sl ∈ (s.store.levelState .sl p).view := Option.mem_map_of_mem _ stored
    obtain ⟨view, isView, same⟩ := (moves .sl p).symbol seen
    obtain ⟨h', stored', rfl⟩ := Option.map_eq_some_iff.mp isView
    exact ⟨h', stored', same⟩
  have calls {t : ℕ} {r : RunningSltp} (isCall : r ∈ (s.afterScript store).calls t) :
      ∃ r' ∈ s.calls t, r.call = r'.call ∧ r.stage = r'.stage ∧ r.wrote = r'.wrote ∧
        (r.disturbed = false → r'.disturbed = false ∧
          ∀ f, store.view f r'.call.positionId = s.store.view f r'.call.positionId) := by
    obtain ⟨r', isCall', rfl⟩ := Option.map_eq_some_iff.mp isCall
    refine ⟨r', isCall', rfl, rfl, rfl, ?_⟩
    intro calm
    obtain ⟨before, same⟩ := Bool.or_eq_false_iff.mp calm
    obtain ⟨sl, tp⟩ := not_not.mp (of_decide_eq_false same)
    refine ⟨before, fun f => ?_⟩
    cases f
    · exact sl
    · exact tp
  have window {p : PositionId} {f : LevelField} :
      (s.afterScript store).Window p f ↔ s.Window p f := by
    constructor
    · rintro ⟨t, r, isCall, rfl, symbol, text, stage⟩
      obtain ⟨r', isCall', sameCall, sameStage, -⟩ := calls isCall
      exact ⟨t, r', isCall', by rw [sameCall], symbol, text, sameStage ▸ stage⟩
    · rintro ⟨t, r, isCall, rfl, symbol, text, stage⟩
      exact ⟨t, _, Option.mem_map_of_mem _ isCall, rfl, symbol, text, stage⟩
  refine ⟨Store.call_placed sound.placed within taken, fun f p => (moves f p).within (sound.within f p),
    ?_, ?_, ?_, ?_, sound.silent⟩
  · intro p f noWindow
    rw [window] at noWindow
    exact (moves f p).live (sound.live p f noWindow)
  · intro t r isCall
    obtain ⟨r', isCall', sameCall, sameStage, sameWrote, calm⟩ := calls isCall
    have earlier := sound.calls t r' isCall'
    refine ⟨?_, ?_, ?_, ?_, ?_, ?_⟩
    · rw [sameStage, sameWrote]
      exact earlier.fresh
    · intro f symbol stage
      obtain ⟨h, stored, known⟩ := earlier.known f symbol (sameStage ▸ stage)
      obtain ⟨h', stored', same⟩ := hash _ h stored
      rw [sameCall]
      exact ⟨h', stored', same.trans known⟩
    · intro stage
      obtain ⟨h, stored⟩ := earlier.stored (sameStage ▸ stage)
      obtain ⟨h', stored', -⟩ := hash _ h stored
      rw [sameCall]
      exact ⟨h', stored'⟩
    · intro f symbol text stage
      have before : r'.stage = .setIndex f symbol text := sameStage ▸ stage
      obtain ⟨opening, asked⟩ := earlier.window f symbol text before
      rw [sameCall]
      exact ⟨opening.of_eq (apart _ f ⟨t, r', isCall', rfl, symbol, text, before⟩), asked⟩
    · intro isCalm f isPast text asked
      obtain ⟨before, views⟩ := calm isCalm
      rw [sameCall] at asked ⊢
      rw [sameStage] at isPast
      exact (earlier.past before f isPast text asked).of_move (moves f _) (views f)
    · rw [sameStage, sameWrote]
      exact earlier.wrote
  · intro t r t' r' isCall isCall' same f symbol text symbol' text' stage stage'
    obtain ⟨r₁, isCall₁, sameCall₁, sameStage₁, -⟩ := calls isCall
    obtain ⟨r₂, isCall₂, sameCall₂, sameStage₂, -⟩ := calls isCall'
    rw [sameCall₁, sameCall₂] at same
    exact sound.sole t r₁ t' r₂ isCall₁ isCall₂ same f symbol text symbol' text'
      (sameStage₁ ▸ stage) (sameStage₂ ▸ stage')
  · intro p f text isAccepted
    have both : store.view f p = s.store.view f p ∧ s.accepted p f = some text := by
      simpa [afterScript] using isAccepted
    exact (sound.accepted p f text both.2).of_move (moves f p) both.1

theorem advanceCall_sound (sound : s.Sound parse) (running : r ∈ s.calls t) {now : Millis}
    (careful : s.Careful parse (.advance t now)) :
    (s.advanceCall parse t r now r.stage).Sound parse := by
  have earlier := sound.calls t r running
  cases isStage : r.stage with
  | getUserId =>
    have closed : ∀ f symbol text, r.stage ≠ .setIndex f symbol text := by simp [isStage]
    have refused : (s.answer t r false).Sound parse :=
      sound.answer running closed fun _ => earlier.fresh (.inl isStage)
    simp only [advanceCall]
    cases (s.store.hash r.call.positionId).bind (·.userId) with
    | none => exact refused
    | some owner =>
      dsimp only
      split_ifs
      · exact refused
      · refine sound.goOn running (by simp) closed
          ⟨?_, by simp, by simp, by simp, by simp [SltpStage.past], by simp⟩
        exact fun _ => earlier.fresh (.inl isStage)
  | getSymbol =>
    have closed : ∀ f symbol text, r.stage ≠ .setIndex f symbol text := by simp [isStage]
    simp only [advanceCall]
    cases found : (s.store.hash r.call.positionId).bind (·.symbol) with
    | none => exact sound.answer running closed fun _ => earlier.fresh (.inr isStage)
    | some symbol =>
      obtain ⟨h, stored, isSymbol⟩ := Option.bind_eq_some_iff.mp found
      refine sound.goOn running (by simp) closed
        ⟨by simp, ?_, by simp, by simp, by simp [SltpStage.past], by simp⟩
      intro f symbol' stage
      cases stage
      exact ⟨h, stored, isSymbol⟩
  | setField f symbol =>
    have closed : ∀ f symbol text, r.stage ≠ .setIndex f symbol text := by simp [isStage]
    simp only [advanceCall]
    cases level : r.call.req.level f with
    | none =>
      obtain ⟨h, stored, known⟩ := earlier.known f symbol isStage
      have outside : ∀ g symbol' text, SltpStage.next f symbol ≠ .setIndex g symbol' text := by
        cases f <;> simp [SltpStage.next]
      refine sound.goOn running outside closed ⟨?_, ?_, fun _ => ⟨h, stored⟩, ?_, ?_,
        fun g symbol' text stage => absurd stage (outside g symbol' text)⟩
      · cases f <;> simp [SltpStage.next]
      · intro g symbol' stage
        cases f <;> cases stage
        exact ⟨h, stored, known⟩
      · intro g symbol' text stage
        exact absurd stage (outside g symbol' text)
      · intro calm g isPast text asked
        by_cases same : g = f
        · subst same
          have unasked : requested parse r.call g = none := by simp [requested, level]
          cases unasked.symm.trans asked
        · have before : r.stage.past g = true := by
            rw [isStage]
            cases f <;> cases g <;> first | rfl | exact absurd rfl same | cases isPast
          exact earlier.past calm g before text asked
    | some written =>
      obtain ⟨unread, reads⟩ := careful r running f symbol isStage (by simp [level])
      cases asked : requested parse r.call f with
      | none => exact sound.answer running closed fun _ => unread asked
      | some text =>
        obtain ⟨noWindow, suits⟩ := reads text asked
        exact SetsField.sound ⟨running, isStage, asked, noWindow, suits⟩ sound
  | setIndex f symbol text =>
    obtain ⟨opening, -⟩ := earlier.window f symbol text isStage
    simp only [advanceCall]
    cases indexed : s.store.setIndex f symbol r.call.positionId text with
    | none =>
      obtain ⟨status, -, isNull | ⟨x, isNum, -⟩⟩ := opening.view
      · subst isNull
        cases indexed
      · subst isNum
        cases indexed
    | some store => exact SetsIndex.sound ⟨running, isStage, indexed⟩ sound
  | setUpdatedAt => exact sound.setUpdatedAt running isStage now

theorem step_sound {action : SltpAction} (sound : s.Sound parse)
    (careful : s.Careful parse action) (taken : s.step parse action = some after) :
    after.Sound parse := by
  cases action with
  | edit t call permitted =>
    simp only [SltpDesk.step] at taken
    split_ifs at taken with idle allowed
    · cases taken
      have calls {u : ℕ} {r : RunningSltp}
          (isCall : r ∈ Function.update s.calls t (some { call := call }) u) :
          r = { call := call } ∨ (u ≠ t ∧ r ∈ s.calls u) := by
        by_cases own : u = t
        · subst own
          rw [Function.update_self] at isCall
          exact .inl (Option.some.inj isCall).symm
        · rw [Function.update_of_ne own] at isCall
          exact .inr ⟨own, isCall⟩
      refine ⟨sound.placed, sound.within, ?_, ?_, ?_, sound.accepted, sound.silent⟩
      · intro p f noWindow
        refine sound.live p f ?_
        rintro ⟨u, r, isCall, same, symbol, text, stage⟩
        refine noWindow ⟨u, r, ?_, same, symbol, text, stage⟩
        have own : u ≠ t := by
          rintro rfl
          cases idle.symm.trans isCall
        change r ∈ Function.update s.calls t (some { call := call }) u
        rw [Function.update_of_ne own]
        exact isCall
      · intro u r isCall
        rcases calls isCall with rfl | ⟨-, kept⟩
        · exact ⟨fun _ => rfl, by simp, by simp, by simp, by simp [SltpStage.past], by simp⟩
        · exact sound.calls u r kept
      · intro u r u' r' isCall isCall' same f symbol text symbol' text' stage stage'
        rcases calls isCall with rfl | ⟨-, kept⟩
        · cases stage
        · rcases calls isCall' with rfl | ⟨-, kept'⟩
          · cases stage'
          · exact sound.sole u r u' r' kept kept' same f symbol text symbol' text' stage stage'
    · cases taken
      refine ⟨sound.placed, sound.within, sound.live, sound.calls, sound.sole, sound.accepted, ?_⟩
      intro answer isAnswer refused
      rcases List.mem_cons.mp isAnswer with rfl | before
      · rfl
      · exact sound.silent answer before refused
  | advance t now =>
    obtain ⟨r, running, rfl⟩ := Option.map_eq_some_iff.mp taken
    exact advanceCall_sound sound running careful
  | fail t =>
    obtain ⟨r, running, rfl⟩ := Option.map_eq_some_iff.mp taken
    have unwritten : r.wrote = false := careful r running
    refine sound.answer running ?_ fun _ => unwritten
    intro f symbol text stage
    have writes := (sound.calls t r running).wrote f symbol text stage
    rw [unwritten] at writes
    cases writes
  | script call =>
    simp only [SltpDesk.step] at taken
    split_ifs at taken with within
    obtain ⟨store, called, rfl⟩ := Option.map_eq_some_iff.mp taken
    exact sound.script within careful.1 called (careful.2 store called)
  | modifyPositionSltp permitted p stopLoss takeProfit =>
    simp only [SltpDesk.step] at taken
    split_ifs at taken with allowed
    · cases taken
      obtain ⟨rfl, rfl⟩ := careful allowed
      refine ⟨sound.placed, sound.within, sound.live, sound.calls, sound.sole, ?_, sound.silent⟩
      intro q f text isAccepted
      have before : text ∈ s.accepted q f := by
        by_cases here : q = p
        · subst here
          cases f <;> simpa using isAccepted
        · simpa [here] using isAccepted
      exact sound.accepted q f text before
    · cases taken
      exact sound

theorem placed_empty (P : ℚ → Prop) : Store.empty.Placed P where
  hashesOnly _ := rfl
  orders o order isStored := by
    have unstored : Store.empty.orders o = none := rfl
    rw [unstored] at isStored
    cases isStored

theorem levelState_empty (f : LevelField) (p : PositionId) :
    Store.empty.levelState f p = ⟨none, fun _ => none⟩ :=
  Store.levelState_eq rfl fun _ => rfl

theorem sound_start : start.Sound parse where
  placed := placed_empty FiniteF64
  within f p := by
    simp only [start, levelState_empty, LevelState.Within]
    exact nofun
  live p f _ := by
    simp only [start, levelState_empty, LevelState.Live]
    exact nofun
  calls := by simp [start]
  sole := by simp [start]
  accepted := by simp [start]
  silent := by simp [start]

end Steps

section OneEdit

/-- The text `9` is a number, no other text is read here. -/
def readNine (text : String) : Option ParsedF64 :=
  if text = "9" then some (.finite 9 (by decide +kernel)) else none

/-- An open position with a stop loss of 8 and a take profit of 20. -/
def openPositionCalls : List SltpAction :=
  [.script (.placeOrder 1 (nettingBuy 1 2 8 20)),
   .script (.atomicFillOrder ⟨1, 10, 2, 1000, .uuid 1, some 100⟩ [] [])]

/-- An edit of the position, with `steps` commands of it. -/
def editAfterOpen (req : UpdatePositionSltpRequest) (steps : ℕ) : List SltpAction :=
  openPositionCalls ++ .edit 1 ⟨7, true, .uuid 1, req⟩ true :: List.replicate steps (.advance 1 2000)

/-- Only the first task runs, on numbers and an open position, and no fill merges. -/
def solo (parse : String → Option ParsedF64) (s : SltpDesk) : SltpAction → Bool
  | .edit t _ _ => decide (t = 1)
  | .advance t _ => decide (t = 1) && (s.calls 1).all fun r =>
    match r.stage with
    | .setField f _ => match requested parse r.call f with
      | some (.num x) => decide (FiniteF64 x ∧
          ((s.store.hash r.call.positionId).bind (·.status)) = some .OPEN)
      | some _ => false
      | none => (r.call.req.level f).isNone
    | _ => true
  | .fail _ => false
  | .script call => (s.calls 1).isNone && match call with
    | .atomicFillOrder args existing _ => (s.store.orders args.orderId).all fun order =>
      match order.target s.store existing with
      | .merge _ _ => false
      | _ => true
    | _ => true
  | .modifyPositionSltp .. => false

/-- Only the first task runs. -/
def Alone (s : SltpDesk) : Prop := ∀ t, t ≠ 1 → s.calls t = none

variable {parse : String → Option ParsedF64} {s after : SltpDesk} {action : SltpAction}

theorem calls_advanceCall {r : RunningSltp} {t : ℕ} {now : Millis} {stage : SltpStage} {u : ℕ}
    (differ : u ≠ t) (idle : s.calls u = none) : (s.advanceCall parse t r now stage).calls u = none := by
  have goOn (stage : SltpStage) : (s.goOn t r stage).calls u = none := by
    simp [SltpDesk.goOn, differ, idle]
  have answer (success : Bool) : (s.answer t r success).calls u = none := by
    simp [SltpDesk.answer, differ, idle]
  cases stage with
  | getUserId =>
    simp only [advanceCall]
    cases (s.store.hash r.call.positionId).bind (·.userId) with
    | none => exact answer false
    | some owner =>
      dsimp only
      split_ifs
      · exact answer false
      · exact goOn _
  | getSymbol =>
    simp only [advanceCall]
    cases (s.store.hash r.call.positionId).bind (·.symbol) with
    | none => exact answer false
    | some symbol => exact goOn _
  | setField f symbol =>
    simp only [advanceCall]
    cases r.call.req.level f with
    | none => exact goOn _
    | some written =>
      cases requested parse r.call f with
      | none => exact answer false
      | some text => simp [SltpDesk.setField, differ, idle]
  | setIndex f symbol text =>
    simp only [advanceCall]
    cases s.store.setIndex f symbol r.call.positionId text with
    | none => exact answer false
    | some store => simp [SltpDesk.goOn, differ, idle]
  | setUpdatedAt => simp [advanceCall, SltpDesk.answer, differ, idle]

theorem alone_step (isSolo : solo parse s action = true) (taken : s.step parse action = some after)
    (alone : s.Alone) : after.Alone := by
  intro u differ
  cases action with
  | edit t call permitted =>
    have own : t = 1 := of_decide_eq_true isSolo
    simp only [SltpDesk.step] at taken
    split_ifs at taken
    · cases taken
      simp [own, differ, alone u differ]
    · cases taken
      exact alone u differ
  | advance t now =>
    have own : t = 1 := of_decide_eq_true (Bool.and_eq_true_iff.mp isSolo).1
    obtain ⟨r, -, rfl⟩ := Option.map_eq_some_iff.mp taken
    exact calls_advanceCall (own ▸ differ) (alone u differ)
  | fail t => cases isSolo
  | script call =>
    simp only [SltpDesk.step] at taken
    split_ifs at taken
    obtain ⟨store, -, rfl⟩ := Option.map_eq_some_iff.mp taken
    simp [afterScript, alone u differ]
  | modifyPositionSltp permitted p stopLoss takeProfit => cases isSolo

theorem careful_of_solo (alone : s.Alone) (isSolo : solo parse s action = true) :
    s.Careful parse action := by
  cases action with
  | edit t call permitted => trivial
  | advance t now =>
    obtain ⟨own, suits⟩ := Bool.and_eq_true_iff.mp isSolo
    have isFirst : t = 1 := of_decide_eq_true own
    subst isFirst
    intro r running f symbol isStage level
    have isSome : s.calls 1 = some r := running
    simp only [isSome, Option.all_some, isStage] at suits
    have noWindow : ¬ s.Window r.call.positionId f := by
      rintro ⟨u, other, isCall, -, symbol', text, stage⟩
      by_cases same : u = 1
      · subst same
        cases Option.some.inj (running.symm.trans isCall)
        rw [isStage] at stage
        cases stage
      · cases (alone u same).symm.trans isCall
    cases asked : requested parse r.call f with
    | none =>
      rw [asked] at suits
      exact absurd (Option.isNone_iff_eq_none.mp suits) level
    | some text =>
      rw [asked] at suits
      refine ⟨nofun, fun other isOther => ⟨noWindow, ?_⟩⟩
      cases isOther
      cases text with
      | num x =>
        obtain ⟨finite, status⟩ := of_decide_eq_true suits
        obtain ⟨h, stored, isOpen⟩ := Option.bind_eq_some_iff.mp status
        exact .inr ⟨x, rfl, finite, h, stored, isOpen⟩
      | null => cases suits
      | userdata => cases suits
  | fail t => cases isSolo
  | script call =>
    obtain ⟨isIdle, noMerge⟩ := Bool.and_eq_true_iff.mp isSolo
    have idle (t : ℕ) : s.calls t = none := by
      by_cases own : t = 1
      · rw [own]
        exact Option.isNone_iff_eq_none.mp isIdle
      · exact alone t own
    refine ⟨?_, ?_⟩
    · cases call with
      | atomicFillOrder args existing old =>
        intro order stored pass
        have isSome : s.store.orders args.orderId = some order := stored
        simp only [isSome, Option.all_some] at noMerge
        cases target : order.target s.store existing with
        | merge p h => simp [target] at noMerge
        | net p h => trivial
        | fresh => trivial
      | _ => trivial
    · rintro store - p f ⟨t, r, isCall, -⟩
      cases (idle t).symm.trans isCall
  | modifyPositionSltp permitted p stopLoss takeProfit => cases isSolo

end OneEdit

end SltpDesk

end TradingPlatform
