import TradingPlatform.Client.BrowserPage

namespace TradingPlatform

open StepRuns

/-- Whose frames the gateway routes to a connection, and at which prices. -/
def Claims.account (claims : Claims) : String × Option String := (claims.sub, claims.groupId)

namespace PageSocket

/-- What is on its way and what the server has registered is for the account. -/
structure Faithful (account : Option (String × Option String)) (socket : PageSocket) : Prop where
  sent : ∀ token ∈ socket.sent, some token.account = account
  session : socket.session = none ∨ socket.session.map Claims.account = account
  known : socket.authenticated = true ∨ true ∈ socket.replies → socket.session ≠ none

/-- The server has registered the socket or will, or the client will be told
that it has not. -/
def Answered (socket : PageSocket) : Prop :=
  socket.session ≠ none ∨ socket.sent ≠ [] ∨ false ∈ socket.replies

instance (socket : PageSocket) : Decidable socket.Answered :=
  inferInstanceAs (Decidable (_ ∨ _ ∨ _))

theorem faithful_opened (account : Option (String × Option String)) (reconnect : Bool) :
    Faithful account { down reconnect with phase := .opened } where
  sent _ member := nomatch member
  session := .inl rfl
  known := by rintro (authenticated | member) <;> contradiction

end PageSocket

namespace BrowserPage
variable {s after : BrowserPage} {c : SocketClient} {i : ℕ} {waiting : TokenCall}

def account (s : BrowserPage) : Option (String × Option String) := s.accessToken.map Claims.account

/-- Every open socket is authenticated as the account in the store, and as
nobody when there is none. -/
def SpeaksForUser (s : BrowserPage) : Prop :=
  ∀ c, (s.sockets c).phase = .opened → (s.sockets c).session.map Claims.account = s.account

/-- No message and no timer is pending. -/
structure Quiet (s : BrowserPage) : Prop where
  calls : s.calls = []
  effects : s.effects = 0
  sockets : ∀ c, (s.sockets c).phase ≠ .opening ∧ (s.sockets c).sent = [] ∧
    (s.sockets c).replies = [] ∧ (s.sockets c).reconnect = false

/-- The client has still to ask for a token. -/
def Pending (s : BrowserPage) (c : SocketClient) : Prop :=
  ∃ call ∈ s.calls, call.client = c ∧ call.kind ≠ .refresh

def Attended (s : BrowserPage) (c : SocketClient) : Prop :=
  (s.sockets c).Answered ∨ s.Pending c ∨ (c = .price ∧ 0 < s.effects)

/-- The account in the store stays, or changes when no open socket has
authenticated or is about to, and the open ones will for the new account. -/
def MayBecome (s : BrowserPage) (token : Option Claims) : Prop :=
  token.map Claims.account = s.account ∨
    ∀ c, (s.sockets c).phase = .opened →
      (s.sockets c).session = none ∧ (s.sockets c).sent = [] ∧
        (token = none ∨ s.Attended c ∨ (c = .price ∧ s.mounted = true))

/-- A call for a token may fail when the socket does not depend on it. -/
def MayGiveUp (s : BrowserPage) (i : ℕ) : Prop :=
  ∀ call ∈ s.calls[i]?, s.accessToken = none ∨ call.kind = .refresh ∨
    (call.kind = .retry ∧ call.client = .price) ∨
      ((s.sockets call.client).phase = .opened → (s.drop i).Attended call.client)

/-- The account only changes while no socket speaks for another one, and no
call for a token fails that an open socket depends on. -/
def Loyal (s : BrowserPage) : PageAction → Prop
  | .login claims => s.MayBecome (some claims)
  | .logout => s.MayBecome none
  | .setTokens claims _ => s.MayBecome (some claims)
  | .setImpersonationTokens claims _ => s.MayBecome (some claims)
  | .begin i unexpired => unexpired = false ∧ s.refreshToken = none → s.MayGiveUp i
  | .refreshReturns i result =>
    match result with
    | some claims => s.MayBecome (some claims)
    | none => s.MayGiveUp i
  | .userReturns i ok => ok = false → s.MayGiveUp i
  | _ => True

section Decidable

instance (s : BrowserPage) (c : SocketClient) : Decidable (s.Pending c) :=
  inferInstanceAs (Decidable (∃ call ∈ s.calls, call.client = c ∧ call.kind ≠ .refresh))

instance (s : BrowserPage) (c : SocketClient) : Decidable (s.Attended c) :=
  inferInstanceAs (Decidable (_ ∨ _ ∨ _))

theorem forall_client {P : SocketClient → Prop} : (∀ c, P c) ↔ P .ws ∧ P .price :=
  ⟨fun all => ⟨all _, all _⟩, fun ⟨ws, price⟩ c => by cases c <;> assumption⟩

instance (s : BrowserPage) (token : Option Claims) : Decidable (s.MayBecome token) :=
  have : Decidable (∀ c, (s.sockets c).phase = .opened →
      (s.sockets c).session = none ∧ (s.sockets c).sent = [] ∧
        (token = none ∨ s.Attended c ∨ (c = .price ∧ s.mounted = true))) :=
    decidable_of_iff _ forall_client.symm
  inferInstanceAs (Decidable (_ ∨ _))

instance (s : BrowserPage) (i : ℕ) : Decidable (s.MayGiveUp i) :=
  inferInstanceAs (Decidable (∀ call ∈ s.calls[i]?, _))

instance (s : BrowserPage) : DecidablePred s.Loyal
  | .login claims => inferInstanceAs (Decidable (s.MayBecome (some claims)))
  | .logout => inferInstanceAs (Decidable (s.MayBecome none))
  | .setTokens claims _ => inferInstanceAs (Decidable (s.MayBecome (some claims)))
  | .setImpersonationTokens claims _ => inferInstanceAs (Decidable (s.MayBecome (some claims)))
  | .begin i unexpired => inferInstanceAs (Decidable
      (unexpired = false ∧ s.refreshToken = none → s.MayGiveUp i))
  | .refreshReturns _ (some claims) => inferInstanceAs (Decidable (s.MayBecome (some claims)))
  | .refreshReturns i none => inferInstanceAs (Decidable (s.MayGiveUp i))
  | .userReturns i ok => inferInstanceAs (Decidable (ok = false → s.MayGiveUp i))
  | .refreshTimer => .isTrue trivial
  | .connect _ => .isTrue trivial
  | .opened _ => .isTrue trivial
  | .closed _ _ => .isTrue trivial
  | .reconnect _ => .isTrue trivial
  | .serverReads _ _ => .isTrue trivial
  | .reply _ => .isTrue trivial
  | .mount => .isTrue trivial
  | .unmount => .isTrue trivial
  | .effect => .isTrue trivial

end Decidable

/-- The invariant, up to clients whose call for a token is being answered. -/
structure TunedBut (exempt : SocketClient → Prop) (s : BrowserPage) : Prop where
  faithful : ∀ c, (s.sockets c).phase = .opened → (s.sockets c).Faithful s.account
  attended : s.accessToken ≠ none → ∀ c, ¬exempt c → (s.sockets c).phase = .opened → s.Attended c

def Tuned (s : BrowserPage) : Prop := s.TunedBut fun _ => False

theorem tuned_loaded : loaded.Tuned where
  faithful _ opened := nomatch opened
  attended _ _ _ opened := nomatch opened

variable {exempt : SocketClient → Prop}

/-- The sockets and the account stay, and nothing that waits is lost. -/
theorem TunedBut.elsewhere (tuned : s.TunedBut exempt) (sockets : after.sockets = s.sockets)
    (account : after.account = s.account) (pending : ∀ c, ¬exempt c → s.Pending c → after.Pending c)
    (effects : 0 < s.effects → 0 < after.effects) : after.TunedBut exempt where
  faithful c opened := by
    rw [sockets] at opened ⊢
    rw [account]
    exact tuned.faithful c opened
  attended token c other opened := by
    rw [sockets] at opened
    have before : s.accessToken ≠ none := fun none => token <| by
      have nobody : after.account = Option.none := account.trans (by rw [BrowserPage.account, none]; rfl)
      exact Option.map_eq_none_iff.mp nobody
    rcases tuned.attended before c other opened with answered | waits | ⟨price, more⟩
    · exact .inl (sockets ▸ answered)
    · exact .inr (.inl (pending c other waits))
    · exact .inr (.inr ⟨price, effects more⟩)

/-- One socket changes, and its client may no longer be exempt. -/
theorem TunedBut.setSocket {before : SocketClient → Prop} (tuned : s.TunedBut before)
    {socket : PageSocket} (fewer : ∀ d, d ≠ c → ¬exempt d → ¬before d)
    (faithful : socket.phase = .opened → socket.Faithful s.account)
    (attended : s.accessToken ≠ none → ¬exempt c → socket.phase = .opened →
      socket.Answered ∨ s.Pending c ∨ (c = .price ∧ 0 < s.effects)) :
    (s.setSocket c socket).TunedBut exempt where
  faithful d opened := by
    by_cases same : d = c
    · subst same
      simp only [BrowserPage.setSocket, Function.update_self] at opened ⊢
      exact faithful opened
    · simp only [BrowserPage.setSocket, Function.update_of_ne same] at opened ⊢
      exact tuned.faithful d opened
  attended token d other opened := by
    by_cases same : d = c
    · subst same
      simp only [BrowserPage.setSocket, Function.update_self] at opened
      simp only [Attended, BrowserPage.setSocket, Function.update_self]
      exact attended token other opened
    · simp only [BrowserPage.setSocket, Function.update_of_ne same] at opened
      simp only [Attended, BrowserPage.setSocket, Function.update_of_ne same]
      exact tuned.attended token d (fewer d same other) opened

theorem Pending.call (pending : s.Pending c) (d : SocketClient) (kind : CallKind) :
    (s.call d kind).Pending c := by
  obtain ⟨call, member, rest⟩ := pending
  exact ⟨call, List.mem_append_left _ member, rest⟩

theorem TunedBut.call (tuned : s.TunedBut exempt) (d : SocketClient) (kind : CallKind) :
    (s.call d kind).TunedBut exempt :=
  tuned.elsewhere rfl rfl (fun _ _ pending => pending.call d kind) id

theorem pending_call (s : BrowserPage) (c : SocketClient) {kind : CallKind}
    (asks : kind ≠ .refresh) : (s.call c kind).Pending c :=
  ⟨⟨c, kind, .waiting⟩, List.mem_append_right _ (List.mem_singleton_self _), rfl, asks⟩

theorem TunedBut.connect (tuned : s.TunedBut exempt) (d : SocketClient) :
    (s.connect d).TunedBut exempt := by
  unfold BrowserPage.connect
  split_ifs
  · exact tuned.setSocket (fun _ _ other => other) nofun nofun
  · exact tuned

/-- A token of the store goes out. -/
theorem TunedBut.send (tuned : s.TunedBut fun d => d = c) {token : Claims}
    (store : s.accessToken = some token) : (s.send c token).Tuned := by
  unfold BrowserPage.send
  split_ifs with opened
  · have before := tuned.faithful c opened
    refine tuned.setSocket (fun _ apart _ => apart)
      (fun _ => ⟨fun other member => ?_, before.session, before.known⟩)
      fun _ _ _ => .inl (.inr (.inl (List.append_ne_nil_of_right_ne_nil _ (List.cons_ne_nil _ _))))
    rcases List.mem_append.mp member with earlier | now
    · exact before.sent other earlier
    · rw [List.mem_singleton.mp now, account, store]
      rfl
  · refine ⟨tuned.faithful, fun known d _ nowOpened => ?_⟩
    refine tuned.attended known d (fun same => ?_) nowOpened
    exact opened (same ▸ nowOpened)

theorem TunedBut.setAuthToken (tuned : s.TunedBut exempt) (token : Option Claims) :
    (s.setAuthToken token).TunedBut exempt := by
  have unpaused : { s with paused := false }.TunedBut exempt :=
    tuned.elsewhere rfl rfl (fun _ _ pending => pending) id
  unfold BrowserPage.setAuthToken
  split
  · exact unpaused
  · split
    · exact unpaused.call _ _
    · exact unpaused.connect _
    · exact unpaused

theorem setAuthToken_store (s : BrowserPage) (token : Option Claims) :
    (s.setAuthToken token).accessToken = s.accessToken := by
  unfold setAuthToken connect
  split
  · rfl
  · split
    · rfl
    · split_ifs <;> rfl
    · rfl

theorem notify_store (s : BrowserPage) : s.notify.accessToken = s.accessToken := by
  unfold notify
  split
  · exact s.setAuthToken_store _
  · rfl

theorem TunedBut.notify (tuned : s.TunedBut exempt) : s.notify.TunedBut exempt := by
  unfold BrowserPage.notify
  split
  · exact (tuned.setAuthToken _).call _ _
  · exact tuned

/-- Whom the end of a call leaves without an answer. -/
def TokenCall.asks (waiting : TokenCall) (c : SocketClient) : Prop :=
  waiting.kind ≠ .refresh ∧ c = waiting.client

theorem Tuned.drop (tuned : s.Tuned) (called : s.calls[i]? = some waiting) :
    (s.drop i).TunedBut (TokenCall.asks waiting) := by
  have weaker : s.TunedBut (TokenCall.asks waiting) :=
    ⟨tuned.faithful, fun known c _ opened => tuned.attended known c id opened⟩
  refine weaker.elsewhere rfl rfl (fun c other ⟨call, member, client, kind⟩ => ?_) id
  refine ⟨call, ?_, client, kind⟩
  have apart : call ≠ waiting := by
    rintro rfl
    exact other ⟨kind, client.symm⟩
  obtain ⟨j, at_j⟩ := List.mem_iff_getElem?.mp member
  refine List.mem_eraseIdx_iff_getElem?.mpr ⟨j, ?_, at_j⟩
  rintro rfl
  exact apart (Option.some.inj (at_j.symm.trans called))

/-- The end of a call with a token of the store. -/
theorem TunedBut.finish (tuned : s.TunedBut (TokenCall.asks waiting)) {token : Claims}
    (store : s.accessToken = some token) :
    (s.finish waiting.client (some token) waiting.kind).Tuned := by
  obtain ⟨client, kind, stage⟩ := waiting
  have asked : s.TunedBut fun d => d = client :=
    ⟨tuned.faithful, fun known d other opened => tuned.attended known d (fun asks => other asks.2) opened⟩
  cases kind with
  | authenticate =>
    simp only [BrowserPage.finish]
    split_ifs with authenticated
    · refine ⟨asked.faithful, fun known d _ opened => ?_⟩
      by_cases same : d = client
      · subst same
        exact .inl (.inl ((asked.faithful d opened).known (.inl authenticated.2)))
      · exact asked.attended known d same opened
    · exact asked.send store
  | resend => exact asked.send store
  | retry => exact asked.send store
  | refresh => exact ⟨tuned.faithful, fun known d _ opened => tuned.attended known d (·.1 rfl) opened⟩

/-- The end of a call without a token. -/
theorem Tuned.giveUp (tuned : s.Tuned) (called : s.calls[i]? = some waiting)
    (mayGiveUp : s.MayGiveUp i) :
    ((s.drop i).finish waiting.client none waiting.kind).Tuned := by
  have dropped := tuned.drop called
  have enough := mayGiveUp waiting called
  obtain ⟨client, kind, stage⟩ := waiting
  have stays : (kind = .retry → client ≠ .price) → (s.drop i).Tuned := by
    intro kept
    refine ⟨dropped.faithful, fun known d _ opened => ?_⟩
    by_cases asks : TokenCall.asks ⟨client, kind, stage⟩ d
    · obtain ⟨asks, rfl⟩ := asks
      rcases enough with none | refresh | ⟨retry, price⟩ | attended
      · exact absurd none known
      · exact absurd refresh asks
      · exact absurd price (kept retry)
      · exact attended opened
    · exact dropped.attended known d asks opened
  cases kind with
  | authenticate => exact stays nofun
  | resend => exact stays nofun
  | retry =>
    simp only [BrowserPage.finish]
    split_ifs with price
    · have paused : ({ s.drop i with paused := true } : BrowserPage).TunedBut
          (TokenCall.asks ⟨client, .retry, stage⟩) :=
        dropped.elsewhere rfl rfl (fun _ _ pending => pending) id
      exact paused.setSocket (fun d apart _ asks => apart (asks.2.trans price)) nofun nofun
    · exact stays fun _ => price
  | refresh => exact stays nofun

theorem TunedBut.finish_nobody (tuned : s.TunedBut exempt) (nobody : s.accessToken = none)
    (c : SocketClient) (kind : CallKind) : (s.finish c none kind).Tuned := by
  have kept : s.Tuned := ⟨tuned.faithful, fun known => absurd nobody known⟩
  cases kind with
  | retry =>
    simp only [BrowserPage.finish]
    split_ifs
    · have paused : ({ s with paused := true } : BrowserPage).Tuned :=
        kept.elsewhere rfl rfl (fun _ _ pending => pending) id
      exact paused.setSocket (fun _ _ other => other) nofun nofun
    · exact kept
  | _ => exact kept

/-- An open socket of the price stream is authenticated with the token. -/
theorem pending_setAuthToken (s : BrowserPage) (token : Claims)
    (opened : ((s.setAuthToken (some token)).sockets .price).phase = .opened) :
    (s.setAuthToken (some token)).Pending .price := by
  cases phase : (s.sockets .price).phase with
  | closed =>
    simp only [setAuthToken, phase, connect] at opened
    simp [setSocket] at opened
  | opening =>
    simp only [setAuthToken, phase] at opened
    cases opened
  | opened =>
    simp only [setAuthToken, phase]
    exact pending_call _ _ nofun

/-- An effect hands the token of the store to the price stream. -/
theorem Tuned.effect (tuned : s.Tuned) (n : ℕ) :
    ({ s with effects := n }.setAuthToken s.accessToken).Tuned := by
  have others : ({ s with effects := n } : BrowserPage).TunedBut fun d => d = .price := by
    refine ⟨tuned.faithful, fun known d other opened => ?_⟩
    rcases tuned.attended known d id opened with answered | pending | ⟨price, _⟩
    · exact .inl answered
    · exact .inr (.inl pending)
    · exact absurd price other
  have handed := others.setAuthToken s.accessToken
  refine ⟨handed.faithful, fun known d _ opened => ?_⟩
  by_cases price : d = .price
  · subst price
    cases store : s.accessToken with
    | none =>
      rw [setAuthToken_store] at known
      exact absurd store known
    | some token =>
      rw [store] at opened
      exact .inr (.inl (pending_setAuthToken _ token opened))
  · exact handed.attended known d price opened

theorem Tuned.setStage (tuned : s.Tuned) (called : s.calls[i]? = some waiting) (stage : CallStage) :
    (s.setStage i waiting stage).Tuned := by
  refine tuned.elsewhere rfl rfl (fun c _ ⟨call, member, client, kind⟩ => ?_) id
  obtain ⟨j, at_j⟩ := List.mem_iff_getElem?.mp member
  by_cases same : i = j
  · subst same
    cases Option.some.inj (at_j.symm.trans called)
    exact ⟨{ waiting with stage := stage },
      List.mem_set (List.getElem?_eq_some_iff.mp called).1 _, client, kind⟩
  · refine ⟨call, List.mem_iff_getElem?.mpr ⟨j, ?_⟩, client, kind⟩
    exact (List.getElem?_set_ne same).trans at_j

/-- A write to the store that the open sockets can follow. -/
theorem Tuned.setStore (tuned : s.Tuned) {token : Option Claims} (mayBecome : s.MayBecome token)
    (refreshToken : Option String) : (s.setStore token refreshToken).Tuned := by
  have effects : 0 < s.effects → 0 < (s.setStore token refreshToken).effects := by
    intro more
    simp only [BrowserPage.setStore]
    split_ifs <;> omega
  rcases mayBecome with same | unspoken
  · exact tuned.elsewhere rfl same (fun _ _ pending => pending) effects
  · refine ⟨fun c opened => ?_, fun known c _ opened => ?_⟩
    · obtain ⟨session, sent, _⟩ := unspoken c opened
      refine ⟨fun other member => ?_, .inl session, (tuned.faithful c opened).known⟩
      have inSent : other ∈ (s.sockets c).sent := member
      rw [sent] at inSent
      cases inSent
    · obtain ⟨_, _, nobody | attended | ⟨price, mounted⟩⟩ := unspoken c opened
      · exact absurd nobody known
      · rcases attended with answered | pending | ⟨price, more⟩
        · exact .inl answered
        · exact .inr (.inl pending)
        · exact .inr (.inr ⟨price, effects more⟩)
      · refine .inr (.inr ⟨price, ?_⟩)
        simp only [BrowserPage.setStore, if_pos mounted]
        omega

theorem Tuned.serverReads (tuned : s.Tuned) {token : Claims} {rest : List Claims}
    (sent : (s.sockets c).sent = token :: rest) (valid : Bool) :
    (s.setSocket c (receive { s.sockets c with sent := rest } token valid)).Tuned := by
  refine tuned.setSocket (fun _ _ other => other) (fun opened => ?_) fun _ _ _ => ?_
  · have before : (s.sockets c).Faithful s.account := by
      refine tuned.faithful c ?_
      rw [receive] at opened
      split_ifs at opened <;> exact opened
    have remain : ∀ other ∈ rest, some other.account = s.account := fun other member =>
      before.sent other (sent ▸ List.mem_cons_of_mem _ member)
    unfold receive
    split_ifs with known
    · exact ⟨remain, before.session, before.known⟩
    · refine ⟨remain, .inr (before.sent token (sent ▸ List.mem_cons_self)), fun _ => ?_⟩
      exact Option.some_ne_none token
    · refine ⟨remain, before.session, fun heard => before.known ?_⟩
      rcases heard with authenticated | member
      · exact .inl authenticated
      · exact .inr ((List.mem_append.mp member).resolve_right (by simp))
  · refine .inl ?_
    unfold receive
    split_ifs with known
    · exact .inl (Option.ne_none_iff_isSome.mpr known)
    · exact .inl (Option.some_ne_none token)
    · exact .inr (.inr (List.mem_append_right _ (List.mem_singleton_self _)))

theorem Tuned.reply (tuned : s.Tuned) {accepted : Bool} {rest : List Bool}
    (replies : (s.sockets c).replies = accepted :: rest) :
    ((s.call c .retry).setSocket c
        { s.sockets c with replies := rest, authenticated := accepted }).Tuned ∧
      (accepted = true → (s.setSocket c
        { s.sockets c with replies := rest, authenticated := accepted }).Tuned) := by
  have faithful : (s.sockets c).phase = .opened → PageSocket.Faithful s.account
      { s.sockets c with replies := rest, authenticated := accepted } := by
    intro opened
    have before := tuned.faithful c opened
    refine ⟨before.sent, before.session, fun heard => before.known (.inr ?_)⟩
    rw [replies]
    rcases heard with authenticated | member
    · have same : accepted = true := authenticated
      exact same ▸ List.mem_cons_self
    · exact List.mem_cons_of_mem _ member
  constructor
  · refine (tuned.call c .retry).setSocket (fun _ _ other => other) faithful fun _ _ _ => ?_
    exact .inr (.inl (s.pending_call c nofun))
  · rintro rfl
    refine tuned.setSocket (fun _ _ other => other) faithful fun _ _ opened => .inl (.inl ?_)
    refine (tuned.faithful c opened).known (.inr ?_)
    rw [replies]
    exact List.mem_cons_self

theorem Tuned.step (tuned : s.Tuned) {action : PageAction} (loyal : s.Loyal action)
    (taken : s.step action = some after) : after.Tuned := by
  cases action with
  | login claims =>
    cases taken
    exact (tuned.setStore loyal _).connect .ws
  | logout =>
    cases taken
    exact tuned.setStore loyal _
  | setTokens claims account =>
    cases taken
    split_ifs
    · exact (tuned.setStore loyal _).call .ws .resend
    · exact tuned.setStore loyal _
  | setImpersonationTokens claims account =>
    cases taken
    exact tuned.setStore loyal _
  | refreshTimer =>
    simp only [BrowserPage.step] at taken
    split at taken
    next account _ =>
      cases taken
      refine tuned.elsewhere rfl rfl (fun c _ ⟨waiting, member, rest⟩ => ?_) id
      exact ⟨waiting, List.mem_append_left _ member, rest⟩
    next => cases taken
  | begin i unexpired =>
    simp only [BrowserPage.step] at taken
    split at taken
    next waiting called =>
      split at taken
      next =>
        split at taken
        next none =>
          cases taken
          exact tuned.giveUp called fun _ _ => .inl none
        next token store =>
          split at taken
          next =>
            cases taken
            exact (tuned.drop called).finish store
          next expired =>
            split at taken
            next account _ =>
              cases taken
              exact tuned.setStage called _
            next none =>
              cases taken
              exact tuned.giveUp called (loyal ⟨Bool.eq_false_iff.mpr expired, none⟩)
      next => cases taken
    next => cases taken
  | refreshReturns i result =>
    simp only [BrowserPage.step] at taken
    split at taken
    next waiting called =>
      split at taken
      next account _ =>
        split at taken
        next claims =>
          split_ifs at taken
          cases taken
          exact (tuned.setStore loyal s.refreshToken).setStage called .refreshed
        next =>
          cases taken
          exact tuned.giveUp called loyal
      next => cases taken
    next => cases taken
  | userReturns i ok =>
    simp only [BrowserPage.step] at taken
    split at taken
    next waiting called =>
      split_ifs at taken with _ succeeded
      · cases taken
        have notified := (tuned.drop called).notify
        cases store : s.accessToken with
        | none => exact notified.finish_nobody ((s.drop i).notify_store.trans store) _ _
        | some token => exact notified.finish ((s.drop i).notify_store.trans store)
      · cases taken
        exact tuned.giveUp called (loyal (Bool.eq_false_iff.mpr succeeded))
    next => cases taken
  | connect c =>
    cases taken
    exact tuned.connect c
  | opened c =>
    simp only [BrowserPage.step] at taken
    split_ifs at taken
    cases taken
    exact (tuned.call c .authenticate).setSocket (fun _ _ other => other)
      (fun _ => PageSocket.faithful_opened _ _) fun _ _ _ => .inr (.inl (s.pending_call c nofun))
  | closed c again =>
    simp only [BrowserPage.step] at taken
    split_ifs at taken
    cases taken
    exact tuned.setSocket (fun _ _ other => other) nofun nofun
  | reconnect c =>
    simp only [BrowserPage.step] at taken
    split_ifs at taken
    cases taken
    refine TunedBut.connect ?_ c
    refine tuned.setSocket (fun _ _ other => other) (fun opened => ?_) fun known _ opened =>
      tuned.attended known c id opened
    exact ⟨(tuned.faithful c opened).sent, (tuned.faithful c opened).session,
      (tuned.faithful c opened).known⟩
  | serverReads c valid =>
    simp only [BrowserPage.step] at taken
    split at taken
    next token rest sent =>
      cases taken
      exact tuned.serverReads sent valid
    next => cases taken
  | reply c =>
    simp only [BrowserPage.step] at taken
    split at taken
    next accepted rest replies =>
      cases taken
      split_ifs with yes
      · exact (tuned.reply replies).2 yes
      · exact (tuned.reply replies).1
    next => cases taken
  | mount =>
    cases taken
    exact tuned.elsewhere rfl rfl (fun _ _ pending => pending) fun _ => Nat.succ_pos _
  | unmount =>
    cases taken
    exact tuned.elsewhere rfl rfl (fun _ _ pending => pending) id
  | effect =>
    simp only [BrowserPage.step] at taken
    split at taken
    next n more =>
      cases taken
      exact tuned.effect n
    next => cases taken

/-- With nothing pending an open socket has answered for the account. -/
theorem Tuned.speaksForUser (tuned : s.Tuned) (quiet : s.Quiet) : s.SpeaksForUser := by
  intro c opened
  have faithful := tuned.faithful c opened
  obtain ⟨_, sent, replies, _⟩ := quiet.sockets c
  cases store : s.accessToken with
  | none =>
    rcases faithful.session with none | named
    · rw [none, account, store]
    · exact named
  | some token =>
    refine faithful.session.resolve_left fun none => ?_
    have known : s.accessToken ≠ Option.none := by
      rw [store]
      exact Option.some_ne_none token
    rcases tuned.attended known c id opened with answered | ⟨call, member, _⟩ | ⟨_, more⟩
    · rcases answered with session | onTheWay | refused
      · exact session none
      · exact onTheWay sent
      · rw [replies] at refused
        cases refused
    · rw [quiet.calls] at member
      cases member
    · exact absurd quiet.effects more.ne'

/-- As long as the account in the store only changes while no socket speaks for
another one, and no call for a token fails that an open socket depends on,
every quiet page speaks for its user. -/
theorem speaksForUser_of_run {actions : List PageAction}
    (run : GuardedRun step Loyal loaded actions s) (quiet : s.Quiet) : s.SpeaksForUser := by
  have tuned : s.Tuned := run.invariant tuned_loaded
    fun _ _ _ loyal taken held => held.step loyal taken
  exact tuned.speaksForUser quiet

section Runs

def anna : Claims := ⟨"anna", "user", some "gold"⟩

def bert : Claims := ⟨"bert", "user", some "silver"⟩

/-- A socket opens and is authenticated. -/
def authenticates (c : SocketClient) : List PageAction :=
  [.opened c, .begin 0 true, .serverReads c true, .reply c]

/-- Anna logs in on a page with prices, the connection is lost, and Bert logs
in before the sockets are opened again. -/
def userChange : List PageAction :=
  [.login anna] ++ authenticates .ws ++ [.mount, .effect] ++ authenticates .price ++
    [.closed .ws true, .closed .price true, .logout, .effect, .login bert] ++
    authenticates .ws ++ [.effect] ++ authenticates .price ++ [.reconnect .ws, .reconnect .price]

theorem speaksForUser_userChange :
    ∃ s, GuardedRun step Loyal loaded userChange s ∧ s.Quiet ∧ s.SpeaksForUser ∧
      (s.sockets .price).session = some bert := by
  have evaluates : (runGuarded step Loyal loaded userChange).map (fun s =>
      (s.calls, s.effects, s.sockets .ws, s.sockets .price)) =
      some ([], 0, ⟨.opened, true, [], some bert, [], false⟩,
        ⟨.opened, true, [], some bert, [], false⟩) := by decide +kernel
  obtain ⟨s, reached, reads⟩ := Option.map_eq_some_iff.mp evaluates
  simp only [Prod.mk.injEq] at reads
  obtain ⟨calls, effects, ws, price⟩ := reads
  have quiet : s.Quiet := ⟨calls, effects, forall_client.mpr (by simp [ws, price])⟩
  refine ⟨s, .of_eval reached, quiet, speaksForUser_of_run (.of_eval reached) quiet, ?_⟩
  rw [price]

/-- Anna logs out and Bert logs in on the page that Anna's socket is open on. -/
def staleSocket : List PageAction := [.login anna] ++ authenticates .ws ++ [.logout, .login bert]

theorem staleSocket_speaksForAnna :
    ∃ s, Run step loaded staleSocket s ∧ s.Quiet ∧ s.accessToken = some bert ∧
      (s.sockets .ws).session = some anna ∧ ¬s.SpeaksForUser := by
  have evaluates : (runGuarded step (fun _ _ => True) loaded staleSocket).map (fun s =>
      (s.calls, s.effects, s.sockets .ws, s.sockets .price, s.accessToken)) =
      some ([], 0, ⟨.opened, true, [], some anna, [], false⟩, .down false, some bert) := by
    decide +kernel
  obtain ⟨s, reached, reads⟩ := Option.map_eq_some_iff.mp evaluates
  simp only [Prod.mk.injEq] at reads
  obtain ⟨calls, effects, ws, price, store⟩ := reads
  have quiet : s.Quiet := ⟨calls, effects, forall_client.mpr (by simp [ws, price, PageSocket.down])⟩
  refine ⟨s, .of_eval reached, quiet, store, by rw [ws], fun speaks => ?_⟩
  have same := speaks .ws (by rw [ws])
  rw [ws, account, store] at same
  exact absurd same (by decide +kernel)

end Runs

end BrowserPage

end TradingPlatform
