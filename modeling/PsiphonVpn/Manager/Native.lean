import PsiphonVpn.Infra.Run

/-!
# tun2socks の native 側の部品

`run()`（`tun2socks.c`）の初期化と後始末の道筋。

初期化は `Setup` の順に進み、失敗すると対応する `fail` label へ飛ぶ。
label から先は fall through で解放が続く（`Label.releases`）。

`options.set_signal` は `runTun2SocksNative` が 0 にするので `BSignal_Init` は呼ばれず、
`fail2` へ直接飛ぶ経路は無い。`BSignal_Finish` だけは `fail3` 以降で必ず呼ばれる。
-/

namespace Manager

/-- `run()` が確保して解放するもの。 -/
inductive Resource where
  | passwordFileContents | reactor | signal | device | deviceReadInterface | deviceReadBuffer
  | udpgwClient | lwipInitJob | deviceWriteBuf | tcpTimer
  deriving DecidableEq, Repr

/-- `run()` の後始末の入口。`finish` は event loop を抜けた場合。 -/
inductive Label where
  | fail1 | fail2 | fail3 | fail4 | fail4a | fail5 | finish
  deriving DecidableEq, Repr

/-- label から下へ落ちながら解放するもの。 -/
def Label.releases (l : Label) : List Resource :=
  let fail1 := [Resource.passwordFileContents]
  let fail2 := Resource.reactor :: fail1
  let fail3 := Resource.signal :: fail2
  let fail4 := Resource.deviceReadInterface :: Resource.device :: fail3
  let fail4a := Resource.deviceReadBuffer :: fail4
  let fail5 := Resource.lwipInitJob :: Resource.udpgwClient :: fail4a
  match l with
  | .fail1 => fail1
  | .fail2 => fail2
  | .fail3 => fail3
  | .fail4 => fail4
  | .fail4a => fail4a
  | .fail5 => fail5
  | .finish => Resource.tcpTimer :: Resource.deviceWriteBuf :: fail5

/-- `run()` の初期化の段。 -/
inductive Setup where
  | network     -- BNetwork_GlobalInit
  | arguments   -- process_arguments
  | reactor     -- BReactor_Init, quitting = 0
  | tap         -- BTap_InitWithFD または BTap_Init
  | readBuffer  -- SinglePacketBuffer_Init
  | udpgw       -- udpgw_compute_mtu, SocksUdpGwClient_Init
  | writeBuf    -- BAlloc(BTap_GetMTU(&device))
  deriving DecidableEq, Repr

/-- 次の段。`none` なら event loop に入る。 -/
def Setup.next : Setup → Option Setup
  | .network => some .arguments
  | .arguments => some .reactor
  | .reactor => some .tap
  | .tap => some .readBuffer
  | .readBuffer => some .udpgw
  | .udpgw => some .writeBuf
  | .writeBuf => none

/-- 失敗したときの `goto` の先。 -/
def Setup.failLabel : Setup → Label
  | .network | .arguments | .reactor => .fail1
  | .tap => .fail3
  | .readBuffer => .fail4
  | .udpgw => .fail4a
  | .writeBuf => .fail5

/-- tun2socks の thread がどこまで進んだか。 -/
inductive Phase (fd : Type) where
  /-- `Thread.start` された。descriptor はまだ `ParcelFileDescriptor` が持っている。 -/
  | started (fd : fd)
  /-- `detachFd` して `runTun2SocksNative` に入り、`options` を埋めた。 -/
  | entered
  /-- `run()` の中で、次に行う段。 -/
  | setup (p : Setup)
  /-- `BReactor_Exec` の中。 -/
  | loop
  /-- 後始末に入る。 -/
  | exiting (l : Label)
  /-- `run()` から戻り、thread が終わった。 -/
  | ended
  deriving DecidableEq, Repr

namespace Phase

variable {fd : Type}

/-- thread がまだ生きている（`Thread.isAlive`）。 -/
def alive : Phase fd → Bool
  | .ended => false
  | _ => true

/-- `runTun2Socks` の呼び出しが進行中である。 -/
def inProgress : Phase fd → Bool
  | .started _ | .ended => false
  | _ => true

/-- `g_terminate` の reset をまだ通っていない。 -/
def beforeReset : Phase fd → Bool
  | .started _ | .entered => true
  | _ => false

theorem alive_of_inProgress {p : Phase fd} (h : p.inProgress = true) : p.alive = true := by
  cases p <;> simp_all [inProgress, alive]

end Phase

end Manager
