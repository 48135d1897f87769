import PsiphonVpn.Service.State

/-!
# `PsiphonState` と `Bundle` の往復

client に届くのは `PsiphonState` そのものではなく `toBundle()` の結果である。`null` の field は
key ごと省かれ、client は `fromBundle` で読み戻す。

`Bundle` は文字列の key から型の付いた値への対応で、型の違う key を読むと値が無いものとして扱われる。
`TunnelEvent.valueOf` / `ErrorCode.valueOf` は知らない名前に例外を投げるので、`fromBundle` は
`Option` を返す。
-/

namespace Service

inductive BundleValue where
  | string (s : String)
  | boolean (b : Bool)
  | long (n : Int)
  | int (n : Int)
  | stringArrayList (l : List String)
  deriving DecidableEq, Repr

abbrev Bundle := String → Option BundleValue

namespace Bundle

def empty : Bundle := fun _ => none

def put (b : Bundle) (key : String) (v : BundleValue) : Bundle :=
  fun k => if k = key then some v else b k

/-- `value?.let { put…(key, it) }` -/
def putIfSome (b : Bundle) (key : String) (v : Option BundleValue) : Bundle :=
  match v with
  | none => b
  | some v => b.put key v

def getString (b : Bundle) (key : String) : Option String :=
  match b key with
  | some (.string s) => some s
  | _ => none

def getBoolean (b : Bundle) (key : String) (default : Bool) : Bool :=
  match b key with
  | some (.boolean x) => x
  | _ => default

def getLong (b : Bundle) (key : String) (default : Int) : Int :=
  match b key with
  | some (.long n) => n
  | _ => default

def getInt (b : Bundle) (key : String) (default : Int) : Int :=
  match b key with
  | some (.int n) => n
  | _ => default

def getStringArrayList (b : Bundle) (key : String) : Option (List String) :=
  match b key with
  | some (.stringArrayList l) => some l
  | _ => none

def containsKey (b : Bundle) (key : String) : Bool := (b key).isSome

@[simp] theorem empty_apply (k : String) : empty k = none := rfl

@[simp] theorem put_apply (b : Bundle) (key k : String) (v : BundleValue) :
    b.put key v k = if k = key then some v else b k := rfl

@[simp] theorem putIfSome_apply (b : Bundle) (key k : String) (v : Option BundleValue) :
    b.putIfSome key v k = if k = key then v <|> b k else b k := by
  cases v with
  | none => simp [putIfSome]
  | some v => simp [putIfSome, put]

end Bundle

/-! ## enum の名前 -/

def TunnelEvent.name : TunnelEvent → String
  | .STOPPED => "STOPPED"
  | .CONNECTING => "CONNECTING"
  | .CONNECTED => "CONNECTED"
  | .STOPPING => "STOPPING"

def TunnelEvent.valueOf : String → Option TunnelEvent
  | "STOPPED" => some .STOPPED
  | "CONNECTING" => some .CONNECTING
  | "CONNECTED" => some .CONNECTED
  | "STOPPING" => some .STOPPING
  | _ => none

def ErrorCode.name : ErrorCode → String
  | .SOCKS_PORT_IN_USE => "SOCKS_PORT_IN_USE"
  | .HTTP_PORT_IN_USE => "HTTP_PORT_IN_USE"
  | .VPN_REVOKED => "VPN_REVOKED"
  | .SOCKS_PORT_NOT_SET => "SOCKS_PORT_NOT_SET"
  | .TUNNEL_RESTART_FAILED => "TUNNEL_RESTART_FAILED"
  | .TUNNEL_START_FAILED => "TUNNEL_START_FAILED"
  | .UNEXPECTED_ERROR => "UNEXPECTED_ERROR"

def ErrorCode.valueOf : String → Option ErrorCode
  | "SOCKS_PORT_IN_USE" => some .SOCKS_PORT_IN_USE
  | "HTTP_PORT_IN_USE" => some .HTTP_PORT_IN_USE
  | "VPN_REVOKED" => some .VPN_REVOKED
  | "SOCKS_PORT_NOT_SET" => some .SOCKS_PORT_NOT_SET
  | "TUNNEL_RESTART_FAILED" => some .TUNNEL_RESTART_FAILED
  | "TUNNEL_START_FAILED" => some .TUNNEL_START_FAILED
  | "UNEXPECTED_ERROR" => some .UNEXPECTED_ERROR
  | _ => none

@[simp] theorem TunnelEvent.valueOf_name (e : TunnelEvent) :
    TunnelEvent.valueOf e.name = some e := by
  cases e <;> rfl

@[simp] theorem ErrorCode.valueOf_name (e : ErrorCode) : ErrorCode.valueOf e.name = some e := by
  cases e <;> rfl

/-! ## 変換 -/

variable {b : Bundle} {key : String}

namespace PsiphonState

def toBundle (s : PsiphonState) : Bundle :=
  Bundle.empty
    |>.putIfSome "tunnelEvent" (s.tunnelEvent.map fun e => .string e.name)
    |>.put "isWaitingForNetwork" (.boolean s.isWaitingForNetwork)
    |>.putIfSome "clientRegion" (s.clientRegion.map .string)
    |>.putIfSome "connectedServerRegion" (s.connectedServerRegion.map .string)
    |>.put "totalBytesSent" (.long s.totalBytesSent)
    |>.put "totalBytesReceived" (.long s.totalBytesReceived)
    |>.putIfSome "upstreamRateLimit" (s.upstreamRateLimit.map .long)
    |>.putIfSome "downstreamRateLimit" (s.downstreamRateLimit.map .long)
    |>.putIfSome "applicationParameters" (s.applicationParameters.map .string)
    |>.putIfSome "availableEgressRegions" (s.availableEgressRegions.map .stringArrayList)
    |>.putIfSome "socksProxyPort" (s.socksProxyPort.map .int)
    |>.putIfSome "httpProxyPort" (s.httpProxyPort.map .int)
    |>.putIfSome "lastErrorCode" (s.lastErrorCode.map fun c => .string c.name)
    |>.putIfSome "lastErrorData" (s.lastErrorData.map .string)
    |>.putIfSome "lastErrorTimestamp" (s.lastErrorTimestamp.map .long)

/-- 名前を enum に戻す。key が無ければ `null`、知らない名前なら例外。 -/
def enumOf {α : Type} (valueOf : String → Option α) : Option String → Option (Option α)
  | none => some none
  | some name => (valueOf name).map some

/-- `if (containsKey(key)) get…(key) else null` -/
def ifContains (b : Bundle) (key : String) (get : Bundle → String → Int → Int) : Option Int :=
  if b.containsKey key then some (get b key 0) else none

def fromBundle (b : Bundle) : Option PsiphonState := do
  let tunnelEvent ← enumOf TunnelEvent.valueOf (b.getString "tunnelEvent")
  let lastErrorCode ← enumOf ErrorCode.valueOf (b.getString "lastErrorCode")
  return {
    tunnelEvent := tunnelEvent
    isWaitingForNetwork := b.getBoolean "isWaitingForNetwork" false
    clientRegion := b.getString "clientRegion"
    connectedServerRegion := b.getString "connectedServerRegion"
    totalBytesSent := b.getLong "totalBytesSent" 0
    totalBytesReceived := b.getLong "totalBytesReceived" 0
    upstreamRateLimit := ifContains b "upstreamRateLimit" Bundle.getLong
    downstreamRateLimit := ifContains b "downstreamRateLimit" Bundle.getLong
    availableEgressRegions := b.getStringArrayList "availableEgressRegions"
    socksProxyPort := ifContains b "socksProxyPort" Bundle.getInt
    httpProxyPort := ifContains b "httpProxyPort" Bundle.getInt
    applicationParameters := b.getString "applicationParameters"
    lastErrorCode := lastErrorCode
    lastErrorData := b.getString "lastErrorData"
    lastErrorTimestamp := ifContains b "lastErrorTimestamp" Bundle.getLong }

/-! ## 往復 -/

theorem enumOf_name {α : Type} {valueOf : String → Option α} {name : α → String}
    (h : ∀ a, valueOf (name a) = some a) (x : Option α) :
    enumOf valueOf (x.map name) = some x := by
  cases x with
  | none => rfl
  | some a => simp [enumOf, h]

theorem getString_of {x : Option String} (h : b key = x.map .string) : b.getString key = x := by
  cases x <;> simp [Bundle.getString, h]

theorem getStringArrayList_of {x : Option (List String)} (h : b key = x.map .stringArrayList) :
    b.getStringArrayList key = x := by
  cases x <;> simp [Bundle.getStringArrayList, h]

theorem ifContains_long_of {x : Option Int} (h : b key = x.map .long) :
    ifContains b key Bundle.getLong = x := by
  cases x <;> simp [ifContains, Bundle.containsKey, Bundle.getLong, h]

theorem ifContains_int_of {x : Option Int} (h : b key = x.map .int) :
    ifContains b key Bundle.getInt = x := by
  cases x <;> simp [ifContains, Bundle.containsKey, Bundle.getInt, h]

/-- `toBundle` した状態は、client がそのまま読み戻せる。 -/
theorem fromBundle_toBundle (s : PsiphonState) : fromBundle s.toBundle = some s := by
  have hev : s.toBundle.getString "tunnelEvent" = s.tunnelEvent.map TunnelEvent.name :=
    getString_of (by simp [toBundle, Function.comp_def])
  have herr : s.toBundle.getString "lastErrorCode" = s.lastErrorCode.map ErrorCode.name :=
    getString_of (by simp [toBundle, Function.comp_def])
  unfold fromBundle
  rw [hev, herr, enumOf_name TunnelEvent.valueOf_name, enumOf_name ErrorCode.valueOf_name]
  simp only [Option.bind_eq_bind, Option.bind_some, Option.pure_def, Option.some.injEq]
  -- 残りの field は、同じ key で入れた値を取り出すだけである
  ext1
  case tunnelEvent => rfl
  case isWaitingForNetwork => simp [toBundle, Bundle.getBoolean]
  case clientRegion => exact getString_of (by simp [toBundle])
  case connectedServerRegion => exact getString_of (by simp [toBundle])
  case totalBytesSent => simp [toBundle, Bundle.getLong]
  case totalBytesReceived => simp [toBundle, Bundle.getLong]
  case upstreamRateLimit => exact ifContains_long_of (by simp [toBundle])
  case downstreamRateLimit => exact ifContains_long_of (by simp [toBundle])
  case availableEgressRegions => exact getStringArrayList_of (by simp [toBundle])
  case socksProxyPort => exact ifContains_int_of (by simp [toBundle])
  case httpProxyPort => exact ifContains_int_of (by simp [toBundle])
  case applicationParameters => exact getString_of (by simp [toBundle])
  case lastErrorCode => rfl
  case lastErrorData => exact getString_of (by simp [toBundle])
  case lastErrorTimestamp => exact ifContains_long_of (by simp [toBundle])

end PsiphonState

end Service
