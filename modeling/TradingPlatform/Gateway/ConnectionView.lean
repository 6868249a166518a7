import TradingPlatform.Gateway.Broadcaster

namespace TradingPlatform

open StepRuns

theorem count_filter_ne {ids : List ConnId} {c d : ConnId} :
    (ids.filter (· ≠ d)).count c = if c = d then 0 else ids.count c := by
  split_ifs with same
  · subst same
    refine List.count_eq_zero.mpr fun member => ?_
    exact absurd rfl (of_decide_eq_true (List.mem_filter.mp member).2)
  · exact List.count_filter (decide_eq_true same)

theorem count_keys {V : Type} (table : FiniteTable ConnId V) (c : ConnId) :
    table.keys.count c = if (table.lookup c).isSome then 1 else 0 := by
  rw [List.Nodup.count (AList.keys_nodup table)]
  congr 1
  rw [AList.lookup_isSome, ← AList.mem_keys]

section Tables
variable {V : Type} (first second : FiniteTable ConnId V) {c d : ConnId} (v : V)

theorem lookup_insert_other (other : c ≠ d) :
    first.lookup c = (first.insert d v).lookup c := by
  rw [AList.lookup_insert_ne other]

theorem lookup_insert_both (c : ConnId) :
    (first.insert c v).lookup c = (second.insert c v).lookup c := by
  rw [AList.lookup_insert, AList.lookup_insert]

theorem lookup_erase_other (other : c ≠ d) : first.lookup c = (first.erase d).lookup c := by
  rw [AList.lookup_erase_ne other]

theorem lookup_erase_both (c : ConnId) :
    (first.erase c).lookup c = (second.erase c).lookup c := by
  rw [AList.lookup_erase, AList.lookup_erase]

end Tables

namespace Gateway

/-- Two gateways do not differ in what concerns a connection. -/
structure SameView (s t : Gateway) (c : ConnId) : Prop where
  session : s.sessions.lookup c = t.sessions.lookup c
  connection : s.connections.lookup c = t.connections.lookup c
  byUser : ∀ key, (s.userConnections key).count c = (t.userConnections key).count c
  bySymbol : ∀ symbol, (s.symbolSubscribers symbol).count c = (t.symbolSubscribers symbol).count c
  queue : s.txs.lookup c = t.txs.lookup c
  gone : c ∈ s.gone ↔ c ∈ t.gone
  sends : s.sends.filter (·.1 = c) = t.sends.filter (·.1 = c)
  enqueued : s.enqueued c = t.enqueued c

variable {s t r : Gateway} {c d : ConnId}

namespace SameView

theorem refl (s : Gateway) (c : ConnId) : SameView s s c :=
  ⟨rfl, rfl, fun _ => rfl, fun _ => rfl, rfl, Iff.rfl, rfl, rfl⟩

theorem symm (same : SameView s t c) : SameView t s c :=
  ⟨same.session.symm, same.connection.symm, fun key => (same.byUser key).symm,
    fun symbol => (same.bySymbol symbol).symm, same.queue.symm, same.gone.symm, same.sends.symm,
    same.enqueued.symm⟩

theorem trans (first : SameView s t c) (second : SameView t r c) : SameView s r c :=
  ⟨first.session.trans second.session, first.connection.trans second.connection,
    fun key => (first.byUser key).trans (second.byUser key),
    fun symbol => (first.bySymbol symbol).trans (second.bySymbol symbol),
    first.queue.trans second.queue, first.gone.trans second.gone, first.sends.trans second.sends,
    first.enqueued.trans second.enqueued⟩

/-- An operation for another connection on both sides. -/
theorem frame (same : SameView s t c) {s' t' : Gateway} (first : SameView s s' c)
    (second : SameView t t' c) : SameView s' t' c :=
  first.symm.trans (same.trans second)

end SameView

section Operations

theorem register_other (s : Gateway) (conn : Connection) (other : c ≠ d) :
    SameView s (s.register d conn) c where
  session := rfl
  connection := lookup_insert_other _ _ other
  byUser key := by
    unfold register
    dsimp only
    by_cases same : key = normalizeId conn.userId
    · rw [same, Function.update_self, List.count_append, List.count_singleton]
      simp [other.symm]
    · rw [Function.update_of_ne same]
  bySymbol _ := rfl
  queue := rfl
  gone := Iff.rfl
  sends := rfl
  enqueued := rfl

theorem SameView.register (same : SameView s t c) (conn : Connection) :
    SameView (s.register c conn) (t.register c conn) c where
  session := same.session
  connection := lookup_insert_both _ _ _ c
  byUser key := by
    unfold Gateway.register
    dsimp only
    by_cases atKey : key = normalizeId conn.userId
    · rw [atKey, Function.update_self, Function.update_self, List.count_append, List.count_append,
        same.byUser]
    · rw [Function.update_of_ne atKey, Function.update_of_ne atKey, same.byUser]
  bySymbol := same.bySymbol
  queue := same.queue
  gone := same.gone
  sends := same.sends
  enqueued := same.enqueued

theorem unregister_other (s : Gateway) (other : c ≠ d) : SameView s (s.unregister d) c := by
  unfold unregister
  split
  next => exact .refl s c
  next conn _ =>
    refine ⟨rfl, lookup_erase_other _ other, fun key => ?_, fun symbol => ?_, rfl, Iff.rfl,
      rfl, rfl⟩
    · dsimp only
      by_cases same : key = normalizeId conn.userId
      · rw [same, Function.update_self, count_filter_ne, if_neg other]
      · rw [Function.update_of_ne same]
    · dsimp only
      split_ifs
      · rw [count_filter_ne, if_neg other]
      · rfl

theorem SameView.unregister (same : SameView s t c) :
    SameView (s.unregister c) (t.unregister c) c := by
  unfold Gateway.unregister
  rw [same.connection]
  split
  next => exact same
  next conn _ =>
    refine ⟨same.session, lookup_erase_both _ _ c,
      fun key => ?_, fun symbol => ?_, same.queue, same.gone, same.sends, same.enqueued⟩
    · dsimp only
      by_cases atKey : key = normalizeId conn.userId
      · rw [atKey, Function.update_self, Function.update_self, count_filter_ne, count_filter_ne, if_pos rfl,
          if_pos rfl]
      · rw [Function.update_of_ne atKey, Function.update_of_ne atKey, same.byUser]
    · dsimp only
      split_ifs
      · rw [count_filter_ne, count_filter_ne, if_pos rfl,
          if_pos rfl]
      · exact same.bySymbol symbol

theorem subscribeSymbol_other (s : Gateway) (symbol : String) (other : c ≠ d) :
    SameView s (subscribeSymbol d s symbol) c := by
  unfold subscribeSymbol
  split
  next => exact .refl s c
  next conn _ =>
    refine ⟨rfl, lookup_insert_other _ _ other, fun _ => rfl, fun read => ?_, rfl, Iff.rfl,
      rfl, rfl⟩
    dsimp only
    by_cases same : read = symbol
    · rw [same, Function.update_self, List.count_append, List.count_singleton]
      simp [other.symm]
    · rw [Function.update_of_ne same]

theorem SameView.subscribeSymbol (same : SameView s t c) (symbol : String) :
    SameView (subscribeSymbol c s symbol) (subscribeSymbol c t symbol) c := by
  unfold Gateway.subscribeSymbol
  rw [same.connection]
  split
  next => exact same
  next conn _ =>
    refine ⟨same.session, lookup_insert_both _ _ _ c,
      same.byUser, fun read => ?_, same.queue, same.gone, same.sends, same.enqueued⟩
    dsimp only
    by_cases atSymbol : read = symbol
    · rw [atSymbol, Function.update_self, Function.update_self, List.count_append,
        List.count_append, same.bySymbol]
    · rw [Function.update_of_ne atSymbol, Function.update_of_ne atSymbol, same.bySymbol]

theorem unsubscribeSymbol_other (s : Gateway) (symbol : String) (other : c ≠ d) :
    SameView s (unsubscribeSymbol d s symbol) c := by
  unfold unsubscribeSymbol
  split
  next => exact .refl s c
  next conn _ =>
    refine ⟨rfl, lookup_insert_other _ _ other, fun _ => rfl, fun read => ?_, rfl, Iff.rfl,
      rfl, rfl⟩
    dsimp only
    by_cases same : read = symbol
    · rw [same, Function.update_self, count_filter_ne, if_neg other]
    · rw [Function.update_of_ne same]

theorem SameView.unsubscribeSymbol (same : SameView s t c) (symbol : String) :
    SameView (unsubscribeSymbol c s symbol) (unsubscribeSymbol c t symbol) c := by
  unfold Gateway.unsubscribeSymbol
  rw [same.connection]
  split
  next => exact same
  next conn _ =>
    refine ⟨same.session, lookup_insert_both _ _ _ c,
      same.byUser, fun read => ?_, same.queue, same.gone, same.sends, same.enqueued⟩
    dsimp only
    by_cases atSymbol : read = symbol
    · rw [atSymbol, Function.update_self, Function.update_self, count_filter_ne, count_filter_ne, if_pos rfl,
          if_pos rfl]
    · rw [Function.update_of_ne atSymbol, Function.update_of_ne atSymbol, same.bySymbol]

theorem withQueue_other (s : Gateway) (queue frames : List ServerMessage) (other : c ≠ d) :
    SameView s { s with
      txs := s.txs.insert d queue, enqueued := Function.update s.enqueued d frames } c :=
  ⟨rfl, rfl, fun _ => rfl, fun _ => rfl, lookup_insert_other _ _ other, Iff.rfl, rfl,
    (Function.update_of_ne other _ _).symm⟩

theorem SameView.withQueue (same : SameView s t c) (queue frames : List ServerMessage) :
    SameView { s with
        txs := s.txs.insert c queue, enqueued := Function.update s.enqueued c frames }
      { t with txs := t.txs.insert c queue, enqueued := Function.update t.enqueued c frames } c where
  session := same.session
  connection := same.connection
  byUser := same.byUser
  bySymbol := same.bySymbol
  queue := lookup_insert_both _ _ _ c
  gone := same.gone
  sends := same.sends
  enqueued := by
    dsimp only
    rw [Function.update_self, Function.update_self]

theorem withoutQueue_other (s : Gateway) (other : c ≠ d) :
    SameView s { s with txs := s.txs.erase d } c :=
  ⟨rfl, rfl, fun _ => rfl, fun _ => rfl, lookup_erase_other _ other, Iff.rfl, rfl, rfl⟩

theorem SameView.withoutQueue (same : SameView s t c) :
    SameView { s with txs := s.txs.erase c } { t with txs := t.txs.erase c } c :=
  ⟨same.session, same.connection, same.byUser, same.bySymbol, lookup_erase_both _ _ c, same.gone,
    same.sends, same.enqueued⟩

theorem tryDispatchConn_other (s : Gateway) (msg : ServerMessage) (other : c ≠ d) :
    SameView s (s.tryDispatchConn d msg) c := by
  unfold tryDispatchConn
  split
  next => exact .refl s c
  next queue _ =>
    split_ifs
    · exact (withoutQueue_other s other).trans (unregister_other _ other)
    · exact withQueue_other s _ _ other
    · split
      next => exact .refl s c
      next =>
        refine ⟨rfl, rfl, fun _ => rfl, fun _ => rfl, rfl, Iff.rfl, ?_, rfl⟩
        dsimp only
        rw [List.filter_append, List.filter_singleton]
        simp [other.symm]
      next => exact .refl s c

theorem SameView.tryDispatchConn (same : SameView s t c) (msg : ServerMessage) :
    SameView (s.tryDispatchConn c msg) (t.tryDispatchConn c msg) c := by
  unfold Gateway.tryDispatchConn
  rw [same.queue, same.enqueued]
  split
  next => exact same
  next queue _ =>
    by_cases isGone : c ∈ t.gone
    · rw [if_pos isGone, if_pos (same.gone.mpr isGone)]
      exact same.withoutQueue.unregister
    rw [if_neg isGone, if_neg fun gone => isGone (same.gone.mp gone)]
    split_ifs
    · exact same.withQueue _ _
    · split
      next => exact same
      next =>
        refine ⟨same.session, same.connection, same.byUser, same.bySymbol, same.queue, same.gone,
          ?_, same.enqueued⟩
        dsimp only
        rw [List.filter_append, List.filter_append, same.sends]
      next => exact same

end Operations

section Loops
variable {f : Gateway → ConnId → Gateway}

theorem SameView.replicate (lockstep : ∀ s t, SameView s t c → SameView (f s c) (f t c) c) (n : ℕ)
    (same : SameView s t c) :
    SameView ((List.replicate n c).foldl f s) ((List.replicate n c).foldl f t) c := by
  induction n generalizing s t with
  | zero => exact same
  | succ n ih => exact ih (lockstep _ _ same)

/-- A loop over connections does to one of them what its own rounds do. -/
theorem foldl_sameView (frame : ∀ s d, c ≠ d → SameView s (f s d) c)
    (lockstep : ∀ s t, SameView s t c → SameView (f s c) (f t c) c) (ids : List ConnId)
    (s : Gateway) :
    SameView (ids.foldl f s) ((List.replicate (ids.count c) c).foldl f s) c := by
  induction ids generalizing s with
  | nil => exact .refl s c
  | cons d rest ih =>
    rw [List.foldl_cons]
    by_cases own : d = c
    · subst own
      rw [List.count_cons_self]
      exact ih (f s d)
    · rw [List.count_cons_of_ne own]
      exact (ih (f s d)).trans (SameView.replicate lockstep _ (frame s d (Ne.symm own)).symm)

theorem SameView.foldl (frame : ∀ s d, c ≠ d → SameView s (f s d) c)
    (lockstep : ∀ s t, SameView s t c → SameView (f s c) (f t c) c) {first second : List ConnId}
    (counts : first.count c = second.count c) (same : SameView s t c) :
    SameView (first.foldl f s) (second.foldl f t) c := by
  refine (foldl_sameView frame lockstep first s).trans ?_
  rw [counts]
  exact (SameView.replicate lockstep _ same).trans (foldl_sameView frame lockstep second t).symm

theorem SameView.dispatchAll (same : SameView s t c) {first second : List ConnId}
    (counts : first.count c = second.count c) (msg : ServerMessage) :
    SameView (s.dispatchAll first msg) (t.dispatchAll second msg) c :=
  same.foldl (fun s _ => tryDispatchConn_other s msg) (fun _ _ same => same.tryDispatchConn msg)
    counts

theorem dispatchAll_other {ids : List ConnId} (absent : c ∉ ids) (msg : ServerMessage) :
    SameView s (s.dispatchAll ids msg) c := by
  have none : ids.count c = [].count c := List.count_eq_zero.mpr absent
  exact ((SameView.refl s c).dispatchAll none msg).symm

theorem count_adminConnectionIds (s : Gateway) (c : ConnId) : s.adminConnectionIds.count c =
    if (s.connections.lookup c).any (isAdminRole ·.role) then 1 else 0 := by
  unfold adminConnectionIds
  split_ifs with admin
  · have present : (s.connections.lookup c).isSome := by
      cases stored : s.connections.lookup c with
      | none => rw [stored] at admin; cases admin
      | some conn => rfl
    have kept : (s.connections.keys.filter fun d =>
        (s.connections.lookup d).any (isAdminRole ·.role)).count c = s.connections.keys.count c :=
      List.count_filter admin
    rw [kept, count_keys, if_pos present]
  · exact List.count_eq_zero.mpr fun member => admin (List.mem_filter.mp member).2

theorem SameView.count_recipients (same : SameView s t c) (audience : Audience) :
    (s.recipients audience).count c = (t.recipients audience).count c := by
  have admins : s.adminConnectionIds.count c = t.adminConnectionIds.count c := by
    rw [count_adminConnectionIds, count_adminConnectionIds, same.connection]
  cases audience with
  | user userId => exact same.byUser _
  | admins => exact admins
  | userAndAdmins userId =>
    unfold recipients
    rw [List.count_append, List.count_append, same.byUser, admins]
  | everyone =>
    unfold recipients
    rw [count_keys, count_keys, same.queue]

theorem count_foldl_fresh (ids more : List ConnId) (c : ConnId) :
    (more.foldl (fun ids c => if c ∈ ids then ids else ids ++ [c]) ids).count c =
      if c ∈ ids then ids.count c else if c ∈ more then 1 else 0 := by
  induction more generalizing ids with
  | nil =>
    by_cases member : c ∈ ids
    · rw [if_pos member, List.foldl_nil]
    · rw [if_neg member, if_neg List.not_mem_nil, List.foldl_nil]
      exact List.count_eq_zero.mpr member
  | cons d rest ih =>
    rw [List.foldl_cons, ih]
    by_cases known : d ∈ ids
    · rw [if_pos known]
      by_cases member : c ∈ ids
      · rw [if_pos member, if_pos member]
      · have differ : c ≠ d := fun same => member (same ▸ known)
        rw [if_neg member, if_neg member]
        simp [differ]
    · rw [if_neg known]
      by_cases same : c = d
      · subst same
        have none := List.count_eq_zero.mpr known
        simp [known, none]
      · have notLast : [d].count c = 0 :=
          List.count_eq_zero.mpr fun member => same (List.mem_singleton.mp member)
        simp [same, notLast]

theorem SameView.count_tickSubscribers (same : SameView s t c) (symbol : String) :
    (s.tickSubscribers symbol).count c = (t.tickSubscribers symbol).count c := by
  have members : ∀ symbol, c ∈ s.symbolSubscribers symbol ↔ c ∈ t.symbolSubscribers symbol := by
    intro symbol
    rw [← List.count_pos_iff, ← List.count_pos_iff, same.bySymbol]
  unfold tickSubscribers
  split_ifs
  · simp only [count_foldl_fresh, members, same.bySymbol]
  · exact same.bySymbol symbol

theorem dispatchTick_other (symbol : String) (now : ℤ) (payload : Json) (s : Gateway)
    (other : c ≠ d) : SameView s (dispatchTick symbol now payload s d) c := by
  unfold dispatchTick
  split
  next msg _ => exact tryDispatchConn_other s msg other
  next => exact .refl s c

theorem SameView.dispatchTick (same : SameView s t c) (symbol : String) (now : ℤ)
    (payload : Json) :
    SameView (dispatchTick symbol now payload s c) (dispatchTick symbol now payload t c) c := by
  unfold Gateway.dispatchTick
  rw [same.connection]
  split
  next msg _ => exact same.tryDispatchConn msg
  next => exact same

theorem SameView.handle (same : SameView s t c) (m : Message) (now : ℤ) :
    SameView (s.handle m now) (t.handle m now) c := by
  unfold Gateway.handle
  split_ifs
  · unfold broadcastTick
    split
    next => exact same
    next symbol _ =>
      exact same.foldl (fun s _ => dispatchTick_other symbol now m.payload s)
        (fun _ _ same => same.dispatchTick symbol now m.payload)
        (same.count_tickSubscribers symbol)
  · split
    next => exact same
    next audience msg _ => exact same.dispatchAll (same.count_recipients audience) msg

end Loops

section Steps

theorem SameView.foldl_symbols {f : Gateway → String → Gateway}
    (keeps : ∀ s t symbol, SameView s t c → SameView (f s symbol) (f t symbol) c)
    (symbols : List String) (same : SameView s t c) :
    SameView (symbols.foldl f s) (symbols.foldl f t) c := by
  induction symbols generalizing s t with
  | nil => exact same
  | cons symbol rest ih => exact ih (keeps _ _ symbol same)

/-- An operation that concerns one connection. -/
theorem SameView.own {f : Gateway → ConnId → Gateway} (same : SameView s t c)
    (frame : ∀ s d, c ≠ d → SameView s (f s d) c)
    (lockstep : ∀ s t, SameView s t c → SameView (f s c) (f t c) c) (d : ConnId) :
    SameView (f s d) (f t d) c := by
  by_cases own : c = d
  · subst own
    exact lockstep s t same
  · exact same.frame (frame s d own) (frame t d own)

theorem withSession_other (s : Gateway) (session : Session) (other : c ≠ d) :
    SameView s { s with sessions := s.sessions.insert d session } c :=
  ⟨lookup_insert_other _ _ other, rfl, fun _ => rfl, fun _ => rfl, rfl, Iff.rfl, rfl, rfl⟩

theorem SameView.withSession (same : SameView s t c) (session : Session) :
    SameView { s with sessions := s.sessions.insert c session }
      { t with sessions := t.sessions.insert c session } c :=
  ⟨lookup_insert_both _ _ _ c, same.connection, same.byUser, same.bySymbol, same.queue, same.gone,
    same.sends, same.enqueued⟩

theorem withTx_other (s : Gateway) (queue : List ServerMessage) (other : c ≠ d) :
    SameView s { s with txs := s.txs.insert d queue } c :=
  ⟨rfl, rfl, fun _ => rfl, fun _ => rfl, lookup_insert_other _ _ other, Iff.rfl, rfl, rfl⟩

theorem SameView.withTx (same : SameView s t c) (queue : List ServerMessage) :
    SameView { s with txs := s.txs.insert c queue } { t with txs := t.txs.insert c queue } c :=
  ⟨same.session, same.connection, same.byUser, same.bySymbol, lookup_insert_both _ _ _ c,
    same.gone, same.sends, same.enqueued⟩

theorem withGone_other (s : Gateway) (other : c ≠ d) :
    SameView s { s with gone := d :: s.gone } c := by
  refine ⟨rfl, rfl, fun _ => rfl, fun _ => rfl, rfl, ?_, rfl, rfl⟩
  simp [other]

theorem SameView.withGone (same : SameView s t c) :
    SameView { s with gone := c :: s.gone } { t with gone := c :: t.gone } c := by
  refine ⟨same.session, same.connection, same.byUser, same.bySymbol, same.queue, ?_, same.sends,
    same.enqueued⟩
  simp

theorem authenticate_other (s : Gateway) (claims : Claims) (other : c ≠ d) :
    SameView s (s.authenticate d claims) c := by
  unfold authenticate
  split
  next => exact (withSession_other s _ other).trans (register_other _ _ other)
  next => exact .refl s c

theorem SameView.authenticate (same : SameView s t c) (claims : Claims) :
    SameView (s.authenticate c claims) (t.authenticate c claims) c := by
  unfold Gateway.authenticate
  rw [same.session]
  split
  next => exact (same.withSession _).register _
  next => exact same

theorem drain_other (s : Gateway) (other : c ≠ d) : SameView s (s.drain d) c := by
  unfold drain
  split
  next => exact .refl s c
  next queue _ => exact withTx_other s _ other

theorem SameView.drain (same : SameView s t c) : SameView (s.drain c) (t.drain c) c := by
  unfold Gateway.drain
  rw [same.queue]
  split
  next => exact same
  next queue _ => exact same.withTx _

theorem filter_eraseP_other (sends : List (ConnId × ServerMessage)) (other : c ≠ d) :
    (sends.eraseP (·.1 = d)).filter (·.1 = c) = sends.filter (·.1 = c) := by
  induction sends with
  | nil => rfl
  | cons send rest ih =>
    by_cases own : send.1 = d
    · simp [own, other.symm]
    · rw [List.eraseP_cons_of_neg (by simpa using own), List.filter_cons, List.filter_cons, ih]

theorem filter_eraseP_own (sends : List (ConnId × ServerMessage)) (c : ConnId) :
    (sends.eraseP (·.1 = c)).filter (·.1 = c) = (sends.filter (·.1 = c)).tail := by
  induction sends with
  | nil => rfl
  | cons send rest ih =>
    by_cases own : send.1 = c
    · simp [own]
    · rw [List.eraseP_cons_of_neg (by simpa using own), List.filter_cons_of_neg
        (by simpa using own), List.filter_cons_of_neg (by simpa using own), ih]

theorem withoutSend_other (s : Gateway) (other : c ≠ d) :
    SameView s { s with sends := s.sends.eraseP (·.1 = d) } c :=
  ⟨rfl, rfl, fun _ => rfl, fun _ => rfl, rfl, Iff.rfl, (filter_eraseP_other _ other).symm, rfl⟩

theorem SameView.withoutSend (same : SameView s t c) :
    SameView { s with sends := s.sends.eraseP (·.1 = c) }
      { t with sends := t.sends.eraseP (·.1 = c) } c := by
  refine ⟨same.session, same.connection, same.byUser, same.bySymbol, same.queue, same.gone, ?_,
    same.enqueued⟩
  rw [filter_eraseP_own, filter_eraseP_own, same.sends]

theorem retry_other (s : Gateway) (other : c ≠ d) : SameView s (s.retry d) c := by
  unfold retry
  split
  next => exact .refl s c
  next msg _ =>
    have left := withoutSend_other s other
    split
    next => exact left
    next queue _ =>
      split_ifs
      · exact left
      · exact left.trans (withQueue_other _ _ _ other)
      · exact .refl s c

theorem SameView.retry (same : SameView s t c) : SameView (s.retry c) (t.retry c) c := by
  have first : s.sends.find? (·.1 = c) = t.sends.find? (·.1 = c) := by
    rw [← List.head?_filter, ← List.head?_filter, same.sends]
  unfold Gateway.retry
  rw [first, same.queue, same.enqueued]
  split
  next => exact same
  next msg _ =>
    have left := same.withoutSend
    split
    next => exact left
    next queue _ =>
      by_cases isGone : c ∈ t.gone
      · rw [if_pos isGone, if_pos (same.gone.mpr isGone)]
        exact left
      rw [if_neg isGone, if_neg fun gone => isGone (same.gone.mp gone)]
      split_ifs
      · exact left.withQueue _ _
      · exact same

theorem endSession_other (s : Gateway) (other : c ≠ d) : SameView s (s.endSession d) c := by
  unfold endSession
  split
  next session _ =>
    exact (((withSession_other s _ other).trans (withoutQueue_other _ other)).trans
      (withGone_other _ other)).trans (unregister_other _ other)
  next => exact .refl s c

theorem SameView.endSession (same : SameView s t c) :
    SameView (s.endSession c) (t.endSession c) c := by
  unfold Gateway.endSession
  rw [same.session]
  split
  next session _ => exact (((same.withSession _).withoutQueue).withGone).unregister
  next => exact same

/-- Equal views stay equal under every action. -/
theorem SameView.step (same : SameView s t c) {action : GatewayAction} {after other : Gateway}
    (taken : s.step action = some after) (follows : t.step action = some other) :
    SameView after other c := by
  cases action with
  | connect d =>
    simp only [Gateway.step] at taken follows
    split_ifs at taken follows
    cases taken
    cases follows
    exact same.own (f := fun s d => { s with
        sessions := s.sessions.insert d ⟨none, true⟩, txs := s.txs.insert d [] })
      (fun s _ other => (withSession_other s _ other).trans (withTx_other _ _ other))
      (fun _ _ same => (same.withSession _).withTx _) d
  | authenticate d claims =>
    cases taken
    cases follows
    exact same.own (fun s _ => authenticate_other s claims) (fun _ _ same => same.authenticate claims) d
  | subscribe d symbols =>
    cases taken
    cases follows
    exact same.foldl_symbols (fun s t symbol same => same.own (fun s _ => subscribeSymbol_other s symbol)
      (fun _ _ same => same.subscribeSymbol symbol) d) _
  | unsubscribe d symbols =>
    cases taken
    cases follows
    exact same.foldl_symbols (fun s t symbol same => same.own
      (fun s _ => unsubscribeSymbol_other s symbol)
      (fun _ _ same => same.unsubscribeSymbol symbol) d) _
  | publish p now =>
    cases taken
    cases follows
    exact same.handle p.message now
  | deliver m now =>
    cases taken
    cases follows
    exact same.handle m now
  | drain d =>
    cases taken
    cases follows
    exact same.own (fun s _ => drain_other s) (fun _ _ same => same.drain) d
  | retry d =>
    cases taken
    cases follows
    exact same.own (fun s _ => retry_other s) (fun _ _ same => same.retry) d
  | receiverEnds d =>
    cases taken
    cases follows
    exact same.own (f := fun s d => { s with gone := d :: s.gone }) (fun s _ => withGone_other s)
      (fun _ _ same => same.withGone) d
  | endSession d =>
    cases taken
    cases follows
    exact same.own (fun s _ => endSession_other s) (fun _ _ same => same.endSession) d

end Steps

end Gateway

end TradingPlatform
