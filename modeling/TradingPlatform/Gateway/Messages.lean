import Mathlib.Data.Int.Notation
import Mathlib.Data.List.Basic

namespace TradingPlatform

/-- `serde_json::Value`. A number that is no integer is kept as the text that
`f64` displays. -/
inductive Json
  | null
  | bool (b : Bool)
  | int (n : ℤ)
  | float (text : String)
  | str (s : String)
  | arr (items : List Json)
  | obj (fields : List (String × Json))

namespace Json

def get (key : String) : Json → Option Json
  | .obj fields => fields.lookup key
  | _ => none

def asStr : Json → Option String
  | .str s => some s
  | _ => none

def asI64 : Json → Option ℤ
  | .int n => some n
  | _ => none

/-- `as_f64` and `to_string` of the result. -/
def asF64Text : Json → Option String
  | .int n => some (toString n)
  | .float text => some text
  | _ => none

def asArray : Json → Option (List Json)
  | .arr items => some items
  | _ => none

/-- `get` and `as_str` -/
def getStr (key : String) (payload : Json) : Option String := (payload.get key).bind asStr

/-- A field that may be a text or a number. -/
def getText (key : String) (payload : Json) : Option String :=
  (payload.getStr key).orElse fun _ => (payload.get key).bind asF64Text

/-- `ts`, or else `timestamp`, or else the time. -/
def timestamp (now : ℤ) (payload : Json) : ℤ :=
  (((payload.get "ts").orElse fun _ => payload.get "timestamp").bind asI64).getD now

/-- `userId`, or else `user_id`. -/
def userId (payload : Json) : Option String :=
  ((payload.get "userId").orElse fun _ => payload.get "user_id").bind asStr

def optStr (value : Option String) : Json := value.elim .null .str

end Json

/-- The frames that the broadcaster sends. -/
inductive ServerMessage
  | tick (symbol bid ask : String) (ts : ℤ)
  | orderUpdate (orderId status symbol side quantity : String) (price : Option String) (ts : ℤ)
  | positionUpdate (positionId symbol side quantity unrealizedPnl status : String) (ts : ℤ)
      (triggerReason : Option String)
  | riskAlert (alertType message severity : String) (ts : ℤ)
  | depositRequestCreated (payload : Json)
  | depositRequestApproved (payload : Json)
  | notificationPush (payload : Json)
  | walletBalanceUpdated (payload : Json)
  | accountSummaryUpdated (payload : Json)

/-- What a queue that is full does with a frame. -/
inductive Priority
  | droppedSilently
  | retried
  | dropped
  deriving DecidableEq, Repr

def ServerMessage.priority : ServerMessage → Priority
  | .tick _ _ _ _ => .droppedSilently
  | .orderUpdate _ _ _ _ _ _ _ => .retried
  | .positionUpdate _ _ _ _ _ _ _ _ => .retried
  | .accountSummaryUpdated _ => .retried
  | .riskAlert _ _ _ _ => .dropped
  | .depositRequestCreated _ => .dropped
  | .depositRequestApproved _ => .dropped
  | .notificationPush _ => .dropped
  | .walletBalanceUpdated _ => .dropped

/-- The connections that a frame is sent to. -/
inductive Audience
  | user (userId : String)
  | admins
  | userAndAdmins (userId : String)
  | everyone
  deriving DecidableEq, Repr

section Routing
variable (now : ℤ) (payload : Json)

/-- `broadcast_order_update`: a payload may be wrapped. -/
def broadcastOrderUpdate : Option (Audience × ServerMessage) :=
  let raw : Json := match payload.get "payload" with
    | some (.obj fields) => .obj fields
    | _ => payload
  match ((raw.get "user_id").orElse fun _ => raw.get "userId").bind Json.asStr,
    (((raw.get "order_id").orElse fun _ => raw.get "orderId").orElse fun _ =>
      raw.get "id").bind Json.asStr with
  | some userId, some orderId =>
    some (.user userId, .orderUpdate orderId ((raw.getStr "status").getD "unknown")
      ((raw.getStr "symbol").getD "") ((raw.getStr "side").getD "")
      (((((raw.get "quantity").orElse fun _ => raw.get "volume").bind Json.asStr).orElse fun _ =>
        (raw.get "quantity").bind Json.asF64Text).getD "")
      (raw.getText "price") (raw.timestamp now))
  | _, _ => none

/-- `broadcast_position_update` -/
def broadcastPositionUpdate : Option (Audience × ServerMessage) :=
  match payload.getStr "user_id",
    ((payload.get "position_id").orElse fun _ => payload.get "id").bind Json.asStr with
  | some userId, some positionId =>
    some (.user userId, .positionUpdate positionId ((payload.getStr "symbol").getD "")
      ((payload.getStr "side").getD "")
      (((((payload.get "quantity").orElse fun _ => payload.get "volume").bind
        Json.asStr).orElse fun _ => (payload.get "quantity").bind Json.asF64Text).getD "")
      (((((payload.get "unrealized_pnl").orElse fun _ => payload.get "pnl").bind
        Json.asStr).orElse fun _ => (payload.get "unrealized_pnl").bind Json.asF64Text).getD "")
      ((payload.getStr "status").getD "OPEN") (payload.timestamp now)
      (payload.getStr "trigger_reason"))
  | _, _ => none

/-- `broadcast_risk_alert` -/
def broadcastRiskAlert : Option (Audience × ServerMessage) :=
  (payload.getStr "user_id").map fun userId =>
    (.user userId, .riskAlert
      ((((payload.get "alert_type").orElse fun _ => payload.get "type").bind Json.asStr).getD "")
      ((payload.getStr "message").getD "") ((payload.getStr "severity").getD "warning")
      (payload.timestamp now))

/-- `broadcast_deposit_request` -/
def broadcastDepositRequest : Option (Audience × ServerMessage) :=
  some (.admins, .depositRequestCreated payload)

/-- `broadcast_deposit_approved` -/
def broadcastDepositApproved : Option (Audience × ServerMessage) :=
  payload.userId.map fun userId => (.userAndAdmins userId, .depositRequestApproved payload)

/-- `broadcast_notification` -/
def broadcastNotification : Option (Audience × ServerMessage) :=
  match payload.userId with
  | some userId => some (.user userId, .notificationPush payload)
  | none => some (.everyone, .notificationPush payload)

/-- `broadcast_wallet_balance` -/
def broadcastWalletBalance : Option (Audience × ServerMessage) :=
  payload.userId.map fun userId => (.user userId, .walletBalanceUpdated payload)

/-- `broadcast_account_summary` -/
def broadcastAccountSummary : Option (Audience × ServerMessage) :=
  payload.userId.map fun userId => (.user userId, .accountSummaryUpdated payload)

/-- The branches of `handle_message` other than the one for ticks. The last
one is for channels that the gateway has no branch for, or does not even
subscribe to. -/
def handleMessage (channel : String) : Option (Audience × ServerMessage) :=
  if channel = "orders:updates" then broadcastOrderUpdate now payload
  else if channel = "positions:updates" then broadcastPositionUpdate now payload
  else if channel = "risk:alerts" then broadcastRiskAlert now payload
  else if channel = "deposits:requests" then broadcastDepositRequest payload
  else if channel = "deposits:approved" then broadcastDepositApproved payload
  else if channel = "notifications:push" then broadcastNotification payload
  else if channel = "wallet:balance:updated" then broadcastWalletBalance payload
  else if channel = "account:summary:updated" then broadcastAccountSummary payload
  else none

end Routing

/-- A message on a Redis channel. -/
structure Message where
  channel : String
  payload : Json

/-- The calls that publish something about a user: of auth-service, and of the
engine for positions. Texts and amounts are arguments as they are printed. -/
inductive Publication
  | orderPlaced (userId orderId symbol side quantity : String) (price : Option String) (ts : ℤ)
  | orderCancelling (userId orderId : String) (ts : ℤ)
  | orderEvent (userId orderId status nestedStatus quantity : String) (price : Option String)
      (ts : ℤ)
  | positionOpened (userId positionId symbol side quantity : String) (ts : ℤ)
  | positionClosed (userId positionId symbol side quantity realizedPnl : String)
      (triggerReason : Option String) (ts : ℤ)
  | depositRequested (userId transactionId createdAt : String) (amount note : Json)
  | depositRequestNotice (userId notificationId transactionId message createdAt amountUsd : String)
      (amount : Json)
  | depositApproved (userId transactionId approvedAt adminId : String) (amount newBalance : Json)
  | depositApprovedNotice (userId notificationId transactionId message createdAt amountUsd
      balanceUsd : String) (amount : Json)
  | depositRejected (userId transactionId rejectedAt adminId : String) (amount reason : Json)
  | depositRejectedNotice (userId notificationId transactionId message createdAt
      amountUsd : String) (amount reason : Json)
  | notification (userId notificationId kind title message createdAt : String) (about : Json)
  | walletBalance (userId : String) (figures : List (String × Json))
  | accountSummary (userId : String) (figures : List (String × Json))

namespace Publication

/-- The user that the publication is about. -/
def user : Publication → String
  | .orderPlaced userId _ _ _ _ _ _ => userId
  | .orderCancelling userId _ _ => userId
  | .orderEvent userId _ _ _ _ _ _ => userId
  | .positionOpened userId _ _ _ _ _ => userId
  | .positionClosed userId _ _ _ _ _ _ _ => userId
  | .depositRequested userId _ _ _ _ => userId
  | .depositRequestNotice userId _ _ _ _ _ _ => userId
  | .depositApproved userId _ _ _ _ _ => userId
  | .depositApprovedNotice userId _ _ _ _ _ _ _ => userId
  | .depositRejected userId _ _ _ _ _ => userId
  | .depositRejectedNotice userId _ _ _ _ _ _ _ => userId
  | .notification userId _ _ _ _ _ _ => userId
  | .walletBalance userId _ => userId
  | .accountSummary userId _ => userId

/-- An order update with the same fields once more under `payload`. -/
def orderUpdate (outer inner : List (String × Json)) : Message :=
  ⟨"orders:updates", .obj (("type", .str "order.update") :: outer ++ [("payload", .obj inner)])⟩

/-- The fields of a row of `notifications`, with the one for the user where
the call sets it. -/
def notice (notificationId kind title message createdAt : String) (user : List (String × Json))
    (about : Json) : Message :=
  ⟨"notifications:push", .obj ([("id", .str notificationId), ("kind", .str kind),
    ("title", .str title), ("message", .str message), ("createdAt", .str createdAt),
    ("read", .bool false)] ++ user ++ [("meta", about)])⟩

def message : Publication → Message
  | .orderPlaced userId orderId symbol side quantity price ts =>
    let fields := [("user_id", .str userId), ("order_id", .str orderId), ("status", .str "PENDING"),
      ("symbol", .str symbol), ("side", .str side), ("quantity", .str quantity),
      ("price", .optStr price), ("ts", .int ts)]
    orderUpdate fields fields
  | .orderCancelling userId orderId ts =>
    let fields := [("user_id", .str userId), ("order_id", .str orderId),
      ("status", .str "CANCELLING"), ("ts", .int ts)]
    orderUpdate fields fields
  | .orderEvent userId orderId status nestedStatus quantity price ts =>
    let fields (status : String) := [("user_id", .str userId), ("order_id", .str orderId),
      ("status", .str status), ("quantity", .str quantity), ("price", .optStr price),
      ("ts", .int ts)]
    orderUpdate (fields status) (fields nestedStatus)
  | .positionOpened userId positionId symbol side quantity ts =>
    ⟨"positions:updates", .obj [("user_id", .str userId), ("position_id", .str positionId),
      ("symbol", .str symbol), ("side", .str side), ("quantity", .str quantity),
      ("unrealized_pnl", .str "0"), ("status", .str "OPEN"), ("trigger_reason", .null),
      ("ts", .int ts)]⟩
  | .positionClosed userId positionId symbol side quantity realizedPnl triggerReason ts =>
    ⟨"positions:updates", .obj [("user_id", .str userId), ("position_id", .str positionId),
      ("symbol", .str symbol), ("side", .str side), ("quantity", .str quantity),
      ("unrealized_pnl", .str realizedPnl), ("trigger_reason", .optStr triggerReason),
      ("ts", .int ts)]⟩
  | .depositRequested userId transactionId createdAt amount note =>
    ⟨"deposits:requests", .obj [("transactionId", .str transactionId), ("userId", .str userId),
      ("amount", amount), ("currency", .str "USD"), ("note", note),
      ("createdAt", .str createdAt)]⟩
  | .depositRequestNotice userId notificationId transactionId message createdAt amountUsd amount =>
    notice notificationId "DEPOSIT_REQUEST" "New Deposit Request" message createdAt []
      (.obj [("kind", .str "deposit_request"), ("amount_usd", .str amountUsd),
        ("currency", .str "USD"), ("transactionId", .str transactionId), ("userId", .str userId),
        ("amount", amount)])
  | .depositApproved userId transactionId approvedAt adminId amount newBalance =>
    ⟨"deposits:approved", .obj [("transactionId", .str transactionId), ("userId", .str userId),
      ("amount", amount), ("currency", .str "USD"), ("approvedAt", .str approvedAt),
      ("newBalance", newBalance), ("adminId", .str adminId)]⟩
  | .depositApprovedNotice _ notificationId transactionId message createdAt amountUsd balanceUsd
      amount =>
    notice notificationId "DEPOSIT_APPROVED" "Deposit Approved" message createdAt []
      (.obj [("kind", .str "deposit_approved"), ("amount_usd", .str amountUsd),
        ("balance_usd", .str balanceUsd), ("currency", .str "USD"),
        ("transactionId", .str transactionId), ("amount", amount)])
  | .depositRejected userId transactionId rejectedAt adminId amount reason =>
    ⟨"deposits:rejected", .obj [("transactionId", .str transactionId), ("userId", .str userId),
      ("amount", amount), ("currency", .str "USD"), ("rejectedAt", .str rejectedAt),
      ("reason", reason), ("adminId", .str adminId)]⟩
  | .depositRejectedNotice _ notificationId transactionId message createdAt amountUsd amount
      reason =>
    notice notificationId "DEPOSIT_REJECTED" "Deposit Rejected" message createdAt []
      (.obj [("kind", .str "deposit_rejected"), ("amount_usd", .str amountUsd),
        ("currency", .str "USD"), ("transactionId", .str transactionId), ("amount", amount),
        ("reason", reason)])
  | .notification userId notificationId kind title message createdAt about =>
    notice notificationId kind title message createdAt [("userId", .str userId)] about
  | .walletBalance userId figures =>
    ⟨"wallet:balance:updated", .obj (("userId", .str userId) :: ("user_id", .str userId) ::
      figures)⟩
  | .accountSummary userId figures =>
    ⟨"account:summary:updated", .obj (("userId", .str userId) :: figures)⟩

end Publication

end TradingPlatform
