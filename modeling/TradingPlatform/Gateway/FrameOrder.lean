import TradingPlatform.Gateway.FrameDelivery

namespace TradingPlatform

open StepRuns

theorem ServerMessage.financial_of_retried {msg : ServerMessage}
    (retried : msg.priority = .retried) : msg.financial = true := by
  cases msg <;> simp_all [priority, financial]

theorem SpawnedSend.grant_frames (sends : List SpawnedSend) :
    (SpawnedSend.grant sends).map SpawnedSend.frame = sends.map SpawnedSend.frame := by
  unfold grant
  split
  next => rfl
  next first _ =>
    rw [List.map_map]
    apply List.map_congr_left
    intro send _
    simp only [Function.comp_apply]
    split <;> rfl

namespace Outbound
variable {cap i : ℕ} {o after : Outbound} {msg : ServerMessage}

/-- The financial frames that the client has received and will still receive, in
the order in which that happens when every send waits its turn. -/
def content (o : Outbound) : List ServerMessage :=
  (o.received ++ o.queue).filter ServerMessage.financial ++ o.sends.map SpawnedSend.frame

/-- Only financial frames are sent again. -/
def Sound (o : Outbound) : Prop := ∀ frame ∈ o.sends.map SpawnedSend.frame, frame.financial = true

theorem offer_isOpen : (o.offer cap msg).isOpen = o.isOpen := by
  unfold offer
  split
  · rfl
  · split <;> rfl

theorem Sound.offer (sound : o.Sound) : (o.offer cap msg).Sound := by
  unfold Outbound.offer
  split
  · exact sound
  · split
    next => exact sound
    next retried =>
      intro frame member
      rcases List.mem_append.mp (List.map_append ▸ member) with before | last
      · exact sound frame before
      · cases List.mem_singleton.mp last
        exact ServerMessage.financial_of_retried retried
    next => exact sound

theorem content_offer_plain (plain : msg.financial = false) :
    (o.offer cap msg).content = o.content := by
  unfold offer
  split
  · simp [content, plain]
  · split
    next => rfl
    next retried =>
      rw [ServerMessage.financial_of_retried retried] at plain
      cases plain
    next => rfl

theorem content_offer_financial (financial : msg.financial = true)
    (first : o.room cap = true → o.sends.isEmpty = true)
    (again : o.room cap = false → msg.priority = .retried) :
    (o.offer cap msg).content = o.content ++ [msg] := by
  unfold offer
  split
  next room =>
    have none : o.sends = [] := List.isEmpty_iff.mp (first room)
    simp [content, none, financial]
  next full =>
    rw [again (by simpa using full)]
    simp [content]

/-- The oldest send puts its frame in the queue. -/
theorem content_enqueue {send : SpawnedSend} (sound : o.Sound) (found : o.sends[0]? = some send) :
    content { o with queue := o.queue ++ [send.frame], sends := o.sends.eraseIdx 0 } =
      o.content := by
  obtain ⟨rest, sends⟩ : ∃ rest, o.sends = send :: rest := by
    cases listed : o.sends with
    | nil => simp [listed] at found
    | cons head rest =>
      rw [listed] at found
      cases found
      exact ⟨rest, rfl⟩
  have financial : send.frame.financial = true := by
    apply sound
    rw [sends]
    exact List.mem_cons_self
  simp [content, sends, financial]

theorem Sound.eraseIdx (sound : o.Sound) (queue : List ServerMessage) (i : ℕ) :
    Sound { o with queue := queue, sends := o.sends.eraseIdx i } := by
  intro frame member
  obtain ⟨send, kept, rfl⟩ := List.mem_map.mp member
  exact sound _ (List.mem_map_of_mem (List.mem_of_mem_eraseIdx kept))

theorem frames_set {send : SpawnedSend} (found : o.sends[i]? = some send) (stage : SendStage) :
    (o.sends.set i ⟨send.frame, stage⟩).map SpawnedSend.frame = o.sends.map SpawnedSend.frame := by
  rw [List.map_set]
  apply List.ext_getElem?
  intro j
  rw [List.getElem?_set]
  split_ifs with same bound
  · subst same
    simp [found]
  · subst same
    simp at bound
    simp [bound]
  · rfl

/-- A step of the channel by itself loses and reorders nothing. -/
structure Keeps (o after : Outbound) : Prop where
  isOpen : after.isOpen = o.isOpen
  sound : after.Sound
  content : after.content = o.content

theorem Keeps.poll (sound : o.Sound) (turn : o.room cap = true → i = 0)
    (taken : o.poll cap i = some after) : Keeps o after := by
  unfold Outbound.poll at taken
  split at taken
  next send found =>
    split_ifs at taken with spawned room
    · cases taken
      cases turn room
      exact ⟨rfl, sound.eraseIdx _ 0, content_enqueue sound found⟩
    · cases taken
      have frames := frames_set found (.waiting o.tickets)
      refine ⟨rfl, ?_, ?_⟩
      · intro frame member
        rw [frames] at member
        exact sound frame member
      · unfold Outbound.content
        rw [frames]
  next => cases taken

theorem Keeps.resume (sound : o.Sound) (taken : o.resume 0 = some after) : Keeps o after := by
  unfold Outbound.resume at taken
  split at taken
  next send found =>
    split_ifs at taken
    cases taken
    exact ⟨rfl, sound.eraseIdx _ 0, content_enqueue sound found⟩
  next => cases taken

theorem Keeps.forward (sound : o.Sound) (taken : o.forward = some after) : Keeps o after := by
  unfold Outbound.forward at taken
  split at taken
  next msg rest queued =>
    cases taken
    refine ⟨rfl, ?_, ?_⟩
    · intro frame member
      rw [SpawnedSend.grant_frames] at member
      exact sound frame member
    · unfold Outbound.content
      rw [SpawnedSend.grant_frames, queued, List.append_assoc, List.singleton_append]
  next => cases taken

end Outbound

/-- The financial frames all go to one user. -/
theorem handleMessage_financial {now : ℤ} {m : Message} {audience : Audience} {msg : ServerMessage}
    (routed : handleMessage now m.payload m.channel = some (audience, msg))
    (financial : msg.financial = true) : ∃ userId, audience = .user userId := by
  unfold handleMessage at routed
  split_ifs at routed
  · unfold broadcastOrderUpdate at routed
    dsimp only at routed
    split at routed
    next userId _ _ _ =>
      cases routed
      exact ⟨userId, rfl⟩
    next => cases routed
  · unfold broadcastPositionUpdate at routed
    split at routed
    next userId _ _ _ =>
      cases routed
      exact ⟨userId, rfl⟩
    next => cases routed
  · obtain ⟨userId, _, same⟩ := Option.map_eq_some_iff.mp routed
    cases same
    exact ⟨userId, rfl⟩
  · cases routed
    cases financial
  · obtain ⟨userId, _, same⟩ := Option.map_eq_some_iff.mp routed
    cases same
    cases financial
  · unfold broadcastNotification at routed
    split at routed <;> cases routed <;> cases financial
  · obtain ⟨userId, _, same⟩ := Option.map_eq_some_iff.mp routed
    cases same
    exact ⟨userId, rfl⟩
  · obtain ⟨userId, _, same⟩ := Option.map_eq_some_iff.mp routed
    cases same
    exact ⟨userId, rfl⟩

theorem tickFrame_not_financial {symbol : String} {now : ℤ} {payload : Json}
    {conn : Option Connection} {msg : ServerMessage}
    (frame : Gateway.tickFrame symbol now payload conn = some msg) : msg.financial = false := by
  unfold Gateway.tickFrame at frame
  split at frame <;> split at frame <;> cases frame <;> rfl

theorem publishedFor_ticks {m : Message} (ticks : m.channel = "price:ticks") (now : ℤ)
    (key : String) : m.publishedFor now key = [] := by
  unfold Message.publishedFor
  rw [ticks]
  rfl

/-- The status that an order update shows. -/
def ServerMessage.orderStatus : ServerMessage → Option String
  | .orderUpdate _ status _ _ _ _ _ => some status
  | _ => none

namespace FrameDelivery
variable {cap : ℕ} {s after : FrameDelivery} {c d : ConnId} {msg : ServerMessage} {o : Outbound}
  {ids : List ConnId}

/-- The registry lists each connection once under its user, and each open
connection has received, or is still to receive, what was published for it. -/
structure Delivers (s : FrameDelivery) : Prop where
  mirrored : ConnectionRegistry.UsersMirrored s.registry
  sound : ∀ c o, s.outbound.lookup c = some o → o.isOpen = true → o.Sound
  content : ∀ c o, s.outbound.lookup c = some o → o.isOpen = true → o.content = s.published c

theorem mirrored_tryDispatchConn (mirrored : ConnectionRegistry.UsersMirrored s.registry) :
    ConnectionRegistry.UsersMirrored (s.tryDispatchConn cap c msg).registry := by
  unfold tryDispatchConn
  split
  next => exact mirrored
  next =>
    split_ifs
    · exact mirrored
    · exact mirrored.unregister c

/-- A connection that is open after a dispatch was open before, and was offered
the frame if it is the one dispatched to. -/
theorem of_lookup_tryDispatchConn
    (live : (s.tryDispatchConn cap d msg).outbound.lookup c = some o) (isOpen : o.isOpen = true) :
    ∃ before, s.outbound.lookup c = some before ∧ before.isOpen = true ∧
      o = if d = c then before.offer cap msg else before := by
  unfold tryDispatchConn at live
  split at live
  next absent =>
    refine ⟨o, live, isOpen, ?_⟩
    rw [if_neg]
    rintro rfl
    rw [absent] at live
    cases live
  next before stored =>
    split_ifs at live with wasOpen
    · by_cases same : d = c
      · subst same
        rw [AList.lookup_insert] at live
        cases live
        exact ⟨before, stored, wasOpen, (if_pos rfl).symm⟩
      · rw [AList.lookup_insert_ne (Ne.symm same)] at live
        exact ⟨o, live, isOpen, (if_neg same).symm⟩
    · by_cases same : d = c
      · subst same
        rw [AList.lookup_erase] at live
        cases live
      · rw [AList.lookup_erase_ne (Ne.symm same)] at live
        exact ⟨o, live, isOpen, (if_neg same).symm⟩

theorem mirrored_dispatchAll (mirrored : ConnectionRegistry.UsersMirrored s.registry) :
    ConnectionRegistry.UsersMirrored (s.dispatchAll cap ids msg).registry := by
  unfold dispatchAll
  induction ids generalizing s with
  | nil => exact mirrored
  | cons d rest ih => exact ih (mirrored_tryDispatchConn mirrored)

/-- After a loop an open connection has been offered the frame as often as it is listed. -/
theorem of_lookup_dispatchAll (live : (s.dispatchAll cap ids msg).outbound.lookup c = some o)
    (isOpen : o.isOpen = true) :
    ∃ before, s.outbound.lookup c = some before ∧ before.isOpen = true ∧
      o = (Outbound.offer cap msg)^[ids.count c] before := by
  unfold dispatchAll at live
  induction ids generalizing s with
  | nil => exact ⟨o, live, isOpen, rfl⟩
  | cons d rest ih =>
    obtain ⟨middle, held, wasOpen, rfl⟩ := ih live
    obtain ⟨before, stored, openBefore, rfl⟩ := of_lookup_tryDispatchConn held wasOpen
    refine ⟨before, stored, openBefore, ?_⟩
    rw [List.count_cons]
    by_cases same : d = c
    · simp [same, Function.iterate_succ_apply]
    · simp [same]

theorem published_tryDispatchConn : (s.tryDispatchConn cap c msg).published = s.published := by
  unfold tryDispatchConn
  split
  · rfl
  · split_ifs <;> rfl

theorem published_dispatchAll : (s.dispatchAll cap ids msg).published = s.published := by
  unfold dispatchAll
  induction ids generalizing s with
  | nil => rfl
  | cons d rest ih => exact ih.trans published_tryDispatchConn

theorem Delivers.tryDispatchConn (delivers : Delivers s) (plain : msg.financial = false) :
    Delivers (s.tryDispatchConn cap d msg) := by
  refine ⟨mirrored_tryDispatchConn delivers.mirrored, fun c o live isOpen => ?_,
    fun c o live isOpen => ?_⟩
  · obtain ⟨before, stored, wasOpen, rfl⟩ := of_lookup_tryDispatchConn live isOpen
    have sound := delivers.sound c before stored wasOpen
    split_ifs
    · exact sound.offer
    · exact sound
  · obtain ⟨before, stored, wasOpen, rfl⟩ := of_lookup_tryDispatchConn live isOpen
    rw [published_tryDispatchConn, ← delivers.content c before stored wasOpen]
    split_ifs
    · exact Outbound.content_offer_plain plain
    · rfl

theorem Delivers.dispatchAll (delivers : Delivers s) (plain : msg.financial = false) :
    Delivers (s.dispatchAll cap ids msg) := by
  unfold FrameDelivery.dispatchAll
  induction ids generalizing s with
  | nil => exact delivers
  | cons d rest ih => exact ih (delivers.tryDispatchConn plain)

theorem Delivers.broadcastTick (delivers : Delivers s) (now : ℤ) (payload : Json) :
    Delivers (s.broadcastTick cap now payload) := by
  unfold FrameDelivery.broadcastTick
  split
  next => exact delivers
  next symbol _ =>
    generalize s.tickSubscribers symbol = ids
    induction ids generalizing s with
    | nil => exact delivers
    | cons d rest ih =>
      refine ih ?_
      unfold dispatchTick
      split
      next msg frame => exact delivers.tryDispatchConn (tickFrame_not_financial frame)
      next => exact delivers

theorem published_broadcastTick (s : FrameDelivery) (now : ℤ) (payload : Json) :
    (s.broadcastTick cap now payload).published = s.published := by
  unfold FrameDelivery.broadcastTick
  split
  next => rfl
  next symbol _ =>
    generalize s.tickSubscribers symbol = ids
    induction ids generalizing s with
    | nil => rfl
    | cons d rest ih =>
      refine (ih _).trans ?_
      unfold dispatchTick
      split
      next => exact published_tryDispatchConn
      next => rfl

theorem publish_of_none (s : FrameDelivery) {m : Message} {now : ℤ}
    (none : ∀ key, m.publishedFor now key = []) : s.publish m now = s.published := by
  funext c
  unfold publish
  split
  · rw [none, List.append_nil]
  · rfl

/-- A financial frame reaches the connections of its user, once each. -/
theorem Delivers.handle_financial {m : Message} {now : ℤ} {userId : String} (delivers : Delivers s)
    (routed : TradingPlatform.handleMessage now m.payload m.channel = some (.user userId, msg))
    (financial : msg.financial = true) (passes : s.Passes cap (some (.user userId, msg))) :
    Delivers { s.dispatchAll cap (s.userConnections userId) msg with
      published := s.publish m now } := by
  have counts : ∀ c, (s.userConnections userId).count c =
      if s.registry.registeredAs c (normalizeId userId) = true then 1 else 0 :=
    fun c => delivers.mirrored.byUser c (normalizeId userId)
  have adds : ∀ c, s.publish m now c = s.published c ++
      if s.registry.registeredAs c (normalizeId userId) = true then [msg] else [] := by
    intro c
    unfold publish ConnectionRegistry.registeredAs
    cases found : s.registry.connections.lookup c with
    | none => simp
    | some conn =>
      unfold Message.publishedFor
      rw [routed]
      simp [financial, eq_comm]
  refine ⟨mirrored_dispatchAll delivers.mirrored, fun c o live isOpen => ?_,
    fun c o live isOpen => ?_⟩
  · obtain ⟨before, stored, wasOpen, rfl⟩ := of_lookup_dispatchAll live isOpen
    have sound := delivers.sound c before stored wasOpen
    rw [counts]
    split_ifs
    · exact sound.offer
    · exact sound
  · obtain ⟨before, stored, wasOpen, rfl⟩ := of_lookup_dispatchAll live isOpen
    have content := delivers.content c before stored wasOpen
    change Outbound.content _ = s.publish m now c
    rw [adds, ← content, counts]
    split_ifs with registered
    · have listed : c ∈ s.userConnections userId := by
        apply List.count_pos_iff.mp
        rw [counts, if_pos registered]
        exact Nat.one_pos
      obtain ⟨first, again⟩ := passes c listed before stored financial wasOpen
      exact Outbound.content_offer_financial financial first again
    · exact (List.append_nil _).symm

theorem Delivers.handle {m : Message} {now : ℤ} (delivers : Delivers s)
    (passes : s.Passes cap (TradingPlatform.handleMessage now m.payload m.channel)) :
    Delivers { s.handleMessage cap m now with published := s.publish m now } := by
  have unpublished : (∀ key, m.publishedFor now key = []) → ∀ next : FrameDelivery,
      Delivers next → next.published = s.published →
      Delivers { next with published := s.publish m now } := by
    intro none next held kept
    rw [publish_of_none s none, ← kept]
    exact held
  unfold FrameDelivery.handleMessage
  split_ifs with ticks
  · exact unpublished (publishedFor_ticks ticks now) _ (delivers.broadcastTick now m.payload)
      (published_broadcastTick ..)
  · split
    next nowhere =>
      refine unpublished (fun key => ?_) s delivers rfl
      unfold Message.publishedFor
      rw [nowhere]
    next audience msg routed =>
      rw [routed] at passes
      by_cases financial : msg.financial = true
      · obtain ⟨userId, rfl⟩ := handleMessage_financial routed financial
        exact delivers.handle_financial routed financial passes
      · have plain : msg.financial = false := by simpa using financial
        refine unpublished (fun key => ?_) _ (delivers.dispatchAll plain) published_dispatchAll
        unfold Message.publishedFor
        rw [routed]
        cases audience <;> simp [plain]

/-- A channel that goes on by itself. -/
theorem Delivers.setOutbound {next : Outbound → Option Outbound} (delivers : Delivers s)
    (keeps : ∀ o after, s.outbound.lookup c = some o → o.Sound → next o = some after →
      after.isOpen = true → o.Keeps after)
    (taken : s.setOutbound c next = some after) : Delivers after := by
  unfold FrameDelivery.setOutbound at taken
  split at taken
  next o stored =>
    split_ifs at taken with isOpen
    obtain ⟨o', goes, rfl⟩ := Option.map_eq_some_iff.mp taken
    have kept : o'.isOpen = true → o.Keeps o' :=
      keeps o o' stored (delivers.sound c o stored isOpen) goes
    refine ⟨delivers.mirrored, fun d other live openAfter => ?_, fun d other live openAfter => ?_⟩
    · by_cases same : d = c
      · subst same
        rw [AList.lookup_insert] at live
        cases live
        exact (kept openAfter).sound
      · rw [AList.lookup_insert_ne same] at live
        exact delivers.sound d other live openAfter
    · by_cases same : d = c
      · subst same
        rw [AList.lookup_insert] at live
        cases live
        exact (kept openAfter).content.trans (delivers.content d o stored isOpen)
      · rw [AList.lookup_insert_ne same] at live
        exact delivers.content d other live openAfter
  next => cases taken

theorem Delivers.step {action : DeliveryAction} (delivers : Delivers s)
    (inOrder : s.InOrder cap action) (taken : s.step cap action = some after) : Delivers after := by
  cases action with
  | connect c =>
    simp only [FrameDelivery.step] at taken
    split_ifs at taken
    cases taken
    refine ⟨delivers.mirrored, fun d o live isOpen => ?_, fun d o live isOpen => ?_⟩
    · by_cases same : d = c
      · subst same
        rw [AList.lookup_insert] at live
        cases live
        intro frame member
        cases member
      · rw [AList.lookup_insert_ne same] at live
        exact delivers.sound d o live isOpen
    · by_cases same : d = c
      · subst same
        rw [AList.lookup_insert] at live
        cases live
        change [] = Function.update s.published d [] d
        rw [Function.update_self]
      · rw [AList.lookup_insert_ne same] at live
        change o.content = Function.update s.published c [] d
        rw [Function.update_of_ne same]
        exact delivers.content d o live isOpen
  | register c claims now =>
    simp only [FrameDelivery.step] at taken
    split_ifs at taken with fresh
    cases taken
    exact ⟨delivers.mirrored.register fresh.1, delivers.sound, delivers.content⟩
  | subscribeSymbol c symbol channels now =>
    cases taken
    exact ⟨delivers.mirrored.subscribeSymbol c symbol channels now, delivers.sound,
      delivers.content⟩
  | unsubscribeSymbol c symbol =>
    cases taken
    exact ⟨delivers.mirrored.unsubscribeSymbol c symbol, delivers.sound, delivers.content⟩
  | handle m now =>
    cases taken
    exact delivers.handle inOrder
  | poll c i =>
    exact delivers.setOutbound (fun o _ stored sound goes _ => .poll sound (inOrder o stored) goes)
      taken
  | resume c i =>
    cases inOrder
    exact delivers.setOutbound (fun _ _ _ sound goes _ => .resume sound goes) taken
  | forward c =>
    exact delivers.setOutbound (fun _ _ _ sound goes _ => .forward sound goes) taken
  | receiverEnds c =>
    refine delivers.setOutbound (fun _ _ _ _ goes isOpen => ?_) taken
    cases goes
    cases isOpen
  | endSession c =>
    cases taken
    refine ⟨delivers.mirrored.unregister c, fun d o live isOpen => ?_, fun d o live isOpen => ?_⟩
    · by_cases same : d = c
      · subst same
        rw [AList.lookup_erase] at live
        cases live
      · rw [AList.lookup_erase_ne same] at live
        exact delivers.sound d o live isOpen
    · by_cases same : d = c
      · subst same
        rw [AList.lookup_erase] at live
        cases live
      · rw [AList.lookup_erase_ne same] at live
        exact delivers.content d o live isOpen

/-- What the client of an open connection has received of the financial frames
is what was published for its user up to some point, and all of it when nothing
is left to send. -/
theorem received_of_run {actions : List DeliveryAction}
    (run : GuardedRun (step cap) (InOrder cap) started actions s)
    (live : s.outbound.lookup c = some o) (isOpen : o.isOpen = true) :
    o.received.filter ServerMessage.financial <+: s.published c ∧
      (o.queue = [] → o.sends = [] →
        o.received.filter ServerMessage.financial = s.published c) := by
  have initially : Delivers started := by
    refine ⟨ConnectionRegistry.mirrored_empty.toUsersMirrored, fun c o live => ?_,
      fun c o live => ?_⟩ <;> cases live
  have delivers : Delivers s :=
    run.invariant initially fun _ _ _ inOrder taken held => held.step inOrder taken
  have content := delivers.content c o live isOpen
  unfold Outbound.content at content
  rw [List.filter_append] at content
  refine ⟨⟨o.queue.filter ServerMessage.financial ++ o.sends.map SpawnedSend.frame, ?_⟩,
    fun sent none => ?_⟩
  · rw [← content, List.append_assoc]
  · rw [sent, none] at content
    simpa using content

/-- A queue of one frame overflows, and the send that waits for it is resumed in its turn. -/
theorem received_after_overflow : ∃ s o, GuardedRun (step 1) (InOrder 1) started
    [.connect 1, .register 1 ⟨"u-1", "user", none⟩ 0,
      .handle (Publication.walletBalance "u1" []).message 1,
      .handle (Publication.accountSummary "u1" []).message 2, .poll 1 0, .forward 1, .resume 1 0,
      .forward 1] s ∧
    s.outbound.lookup 1 = some o ∧ o.received.filter ServerMessage.financial = s.published 1 := by
  have evaluates : (runGuarded (step 1) (InOrder 1) started
      [.connect 1, .register 1 ⟨"u-1", "user", none⟩ 0,
        .handle (Publication.walletBalance "u1" []).message 1,
        .handle (Publication.accountSummary "u1" []).message 2, .poll 1 0, .forward 1,
        .resume 1 0, .forward 1]).map (fun s => (s.outbound.lookup 1).map fun o =>
          (o.isOpen, o.queue.length, o.sends.length)) = some (some (true, 0, 0)) := by
    decide +kernel
  obtain ⟨s, reached, reads⟩ := Option.map_eq_some_iff.mp evaluates
  obtain ⟨o, live, figures⟩ := Option.map_eq_some_iff.mp reads
  simp only [Prod.mk.injEq] at figures
  obtain ⟨isOpen, queue, sends⟩ := figures
  refine ⟨s, o, .of_eval reached, live, ?_⟩
  exact (received_of_run (.of_eval reached) live isOpen).2 (List.length_eq_zero_iff.mp queue)
    (List.length_eq_zero_iff.mp sends)

/-- A message for the one connection of a user is offered to it. -/
theorem step_handle (cap : ℕ) {m : Message} {now : ℤ} {userId : String} (channel : m.channel ≠ "price:ticks")
    (routed : TradingPlatform.handleMessage now m.payload m.channel = some (.user userId, msg))
    (listed : s.userConnections userId = [c]) (stored : s.outbound.lookup c = some o)
    (isOpen : o.isOpen = true) :
    s.step cap (.handle m now) = some { s with
      outbound := s.outbound.insert c (o.offer cap msg)
      published := s.publish m now } := by
  have dispatched : s.dispatchAll cap [c] msg =
      { s with outbound := s.outbound.insert c (o.offer cap msg) } := by
    change s.tryDispatchConn cap c msg = _
    unfold FrameDelivery.tryDispatchConn
    rw [stored]
    exact if_pos isOpen
  have handled : s.handleMessage cap m now =
      { s with outbound := s.outbound.insert c (o.offer cap msg) } := by
    unfold FrameDelivery.handleMessage
    rw [if_neg channel, routed]
    change s.dispatchAll cap (s.userConnections userId) msg = _
    rw [listed, dispatched]
  change some { s.handleMessage cap m now with published := s.publish m now } = _
  rw [handled]

/-- A user's connection, and account summaries for it that the client does not read. -/
def flooding (n : ℕ) : List DeliveryAction :=
  [.connect 1, .register 1 ⟨"u1", "user", none⟩ 0] ++
    List.replicate n (.handle (Publication.accountSummary "u1" []).message 1)

/-- The only connection of the registry is the one of the user. -/
def registered : ConnectionRegistry :=
  ConnectionRegistry.empty.register 1 ⟨"u1", none, "user", ∅, 0⟩

theorem publish_registered {m : Message} {now : ℤ} (registry : s.registry = registered)
    (routed : TradingPlatform.handleMessage now m.payload m.channel = some (.user "u1", msg))
    (financial : msg.financial = true) : s.publish m now 1 = s.published 1 ++ [msg] := by
  have key : m.publishedFor now (normalizeId "u1") = [msg] := by
    unfold Message.publishedFor
    rw [routed]
    exact if_pos ⟨rfl, financial⟩
  unfold publish
  rw [registry]
  exact congrArg (s.published 1 ++ ·) key

theorem listed_registered (registry : s.registry = registered) :
    s.userConnections "u1" = [1] := by
  unfold FrameDelivery.userConnections
  rw [registry]
  decide +kernel

/-- The queue takes the summaries as long as there is room. -/
theorem run_flooding (cap n : ℕ) (fits : n ≤ cap) : ∃ s o, Run (step cap) started (flooding n) s ∧
    s.registry = registered ∧ s.outbound.lookup 1 = some o ∧ o.isOpen = true ∧
    o.queue.length = n ∧ o.sends = [] ∧ o.received = [] ∧ (s.published 1).length = n := by
  induction n with
  | zero =>
    have reached : runGuarded (step cap) (fun _ _ => True) started (flooding 0) = some
        ⟨registered, (∅ : FiniteTable ConnId Outbound).insert 1 .opened,
          Function.update (fun _ => []) 1 []⟩ := rfl
    exact ⟨_, .opened, .of_eval reached, rfl, rfl, rfl, rfl, rfl, rfl, rfl⟩
  | succ n ih =>
    obtain ⟨s, o, run, registry, live, isOpen, queue, sends, received, published⟩ := ih (by omega)
    have routed : TradingPlatform.handleMessage 1 (Publication.accountSummary "u1" []).message.payload
        (Publication.accountSummary "u1" []).message.channel = some (.user "u1",
          .accountSummaryUpdated (Publication.accountSummary "u1" []).message.payload) := rfl
    have taken := step_handle cap (by decide) routed (listed_registered registry) live isOpen
    have room : o.room cap = true := by
      unfold Outbound.room
      rw [queue, sends]
      simpa using fits
    unfold Outbound.offer at taken
    rw [if_pos room] at taken
    have more : flooding (n + 1) = flooding n ++
        [.handle (Publication.accountSummary "u1" []).message 1] := by
      unfold flooding
      rw [List.replicate_succ', List.append_assoc]
    rw [more]
    refine ⟨_, _, .snoc run trivial taken, registry, AList.lookup_insert _, isOpen, ?_, sends,
      received, ?_⟩
    · simp [queue]
    · change (s.publish _ 1 1).length = n + 1
      rw [publish_registered registry routed rfl]
      simp [published]

/-- The send task writes all that is in the queue. -/
theorem run_forward (cap : ℕ) (live : s.outbound.lookup c = some o) (isOpen : o.isOpen = true)
    (sends : o.sends = []) : ∃ after, Run (step cap) s (List.replicate o.queue.length (.forward c))
      after ∧ after.outbound.lookup c = some { o with queue := [], received := o.received ++ o.queue } ∧
      after.published = s.published := by
  obtain ⟨_, queue, _, tickets, received⟩ := o
  subst sends isOpen
  induction queue generalizing s received with
  | nil =>
    refine ⟨s, .nil, ?_, rfl⟩
    rw [List.append_nil]
    exact live
  | cons msg rest ih =>
    obtain ⟨next, goes⟩ : ∃ next : FrameDelivery, next = { s with
        outbound := s.outbound.insert c (.mk true rest [] tickets (received ++ [msg])) } :=
      ⟨_, rfl⟩
    have taken : s.step cap (.forward c) = some next := by
      change s.setOutbound c Outbound.forward = _
      unfold setOutbound
      rw [live, goes]
      rfl
    have moved : next.outbound.lookup c = some (.mk true rest [] tickets (received ++ [msg])) := by
      rw [goes]
      exact AList.lookup_insert _
    obtain ⟨after, run, ends, published⟩ := ih (received ++ [msg]) moved
    have first : Run (step cap) s [.forward c] next := .snoc .nil trivial taken
    refine ⟨after, first.append run, ?_, ?_⟩
    · rw [ends, List.append_assoc, List.singleton_append]
    · rw [published, goes]

/-- What a full queue does to a balance. -/
theorem run_lost_balance (cap : ℕ) : ∃ actions s o, Run (step cap) started actions s ∧
    s.outbound.lookup 1 = some o ∧ o.isOpen = true ∧ o.queue = [] ∧ o.sends = [] ∧
    o.received.length < (s.published 1).length := by
  obtain ⟨s, o, run, registry, live, isOpen, queue, sends, received, published⟩ :=
    run_flooding cap cap le_rfl
  have routed : TradingPlatform.handleMessage 2 (Publication.walletBalance "u1" []).message.payload
      (Publication.walletBalance "u1" []).message.channel = some (.user "u1",
        .walletBalanceUpdated (Publication.walletBalance "u1" []).message.payload) := rfl
  have taken := step_handle cap (by decide) routed (listed_registered registry) live isOpen
  have full : o.room cap = false := by
    unfold Outbound.room
    rw [queue, sends]
    simp
  unfold Outbound.offer at taken
  rw [full, if_neg Bool.false_ne_true] at taken
  obtain ⟨after, drained, ends, kept⟩ := run_forward cap (o := o)
    (s := { s with
      outbound := s.outbound.insert 1 o
      published := s.publish (Publication.walletBalance "u1" []).message 2 })
    (AList.lookup_insert _) isOpen sends
  have whole : Run (step cap) started (flooding cap ++
      [.handle (Publication.walletBalance "u1" []).message 2] ++
        List.replicate o.queue.length (.forward 1)) after :=
    GuardedRun.append (.snoc run trivial taken) drained
  refine ⟨_, after, _, whole, ends, isOpen, rfl, sends, ?_⟩
  rw [kept]
  change (o.received ++ o.queue).length < (s.publish _ 2 1).length
  rw [publish_registered registry routed rfl, received]
  simp [queue, published]

/-- A full queue loses a balance. Where an order update waits for room, a later
one takes it, and the client keeps the status of the earlier one. -/
theorem received_lost_and_overtaken :
    (∃ actions s o, Run (step connChannelCap) started actions s ∧
      s.outbound.lookup 1 = some o ∧ o.isOpen = true ∧ o.queue = [] ∧ o.sends = [] ∧
      o.received.filter ServerMessage.financial ≠ s.published 1) ∧
    ∃ s o, Run (step 1) started
      [.connect 1, .register 1 ⟨"u1", "user", none⟩ 0,
        .handle (Publication.accountSummary "u1" []).message 1,
        .handle (Publication.orderCancelling "u1" "o1" 2).message 2, .forward 1,
        .handle (Publication.orderEvent "u1" "o1" "CANCELLED" "CANCELLED" "1" none 3).message 3,
        .forward 1, .poll 1 0, .forward 1] s ∧
      s.outbound.lookup 1 = some o ∧ o.isOpen = true ∧ o.queue = [] ∧ o.sends = [] ∧
      o.received.filterMap ServerMessage.orderStatus = ["CANCELLED", "CANCELLING"] ∧
      (s.published 1).filterMap ServerMessage.orderStatus = ["CANCELLING", "CANCELLED"] := by
  constructor
  · obtain ⟨actions, s, o, run, live, isOpen, queue, sends, fewer⟩ := run_lost_balance connChannelCap
    refine ⟨actions, s, o, run, live, isOpen, queue, sends, fun same => ?_⟩
    have atMost := List.length_filter_le ServerMessage.financial o.received
    rw [same] at atMost
    omega
  · have evaluates : (runGuarded (step 1) (fun _ _ => True) started
        [.connect 1, .register 1 ⟨"u1", "user", none⟩ 0,
          .handle (Publication.accountSummary "u1" []).message 1,
          .handle (Publication.orderCancelling "u1" "o1" 2).message 2, .forward 1,
          .handle (Publication.orderEvent "u1" "o1" "CANCELLED" "CANCELLED" "1" none 3).message 3,
          .forward 1, .poll 1 0, .forward 1]).map (fun s =>
          ((s.outbound.lookup 1).map fun o => (o.isOpen && o.queue.isEmpty && o.sends.isEmpty,
            o.received.filterMap ServerMessage.orderStatus),
            (s.published 1).filterMap ServerMessage.orderStatus)) =
        some (some (true, ["CANCELLED", "CANCELLING"]), ["CANCELLING", "CANCELLED"]) := by
      decide +kernel
    obtain ⟨s, reached, reads⟩ := Option.map_eq_some_iff.mp evaluates
    obtain ⟨received, published⟩ := Prod.mk.inj reads
    obtain ⟨o, live, figures⟩ := Option.map_eq_some_iff.mp received
    simp only [Prod.mk.injEq, Bool.and_eq_true, List.isEmpty_iff] at figures
    obtain ⟨⟨⟨isOpen, queue⟩, sends⟩, statuses⟩ := figures
    exact ⟨s, o, .of_eval reached, live, isOpen, queue, sends, statuses, published⟩

end FrameDelivery

end TradingPlatform
