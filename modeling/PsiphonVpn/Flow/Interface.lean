import PsiphonVpn.Infra.Reader

/-!
# flow の部品に共通のもの

badvpn の `flow/` の部品は、`PacketPassInterface` などの interface でつながる。どの interface も、使う側が一つの操作を
頼み、提供する側がそれを終えるまで次を頼めない。頼むことと終えることはどちらも job として reactor の番を待つ。

`ASSERT` に失敗することと、記憶の範囲の外に触れることを故障とする。
-/

namespace Flow

open Infra

inductive Assertion where
  | failed
  deriving DecidableEq, Repr

/-- `ASSERT` の失敗は `reject`、buffer の外に触れることは `outOfBounds` である。 -/
abbrev Fault := Stop Assertion

/-- `ASSERT(p)` -/
def ensure (p : Prop) [Decidable p] : Except Fault Unit := require .failed p

@[simp] theorem ensure_bind {α : Type} {p : Prop} [Decidable p] (h : p)
    (f : Unit → Except Fault α) :
    (ensure p >>= f) = f () := require_bind h f

theorem of_ensure_eq_ok {p : Prop} [Decidable p] {u : Unit} (h : ensure p = .ok u) : p := by
  unfold ensure require at h
  split at h
  next hp => exact hp
  next => cases h

/-! ## interface の state -/

/-- `δ` は頼む操作、`ρ` は終えた時に渡すもの。`operationPending` と `donePending` の間は、それぞれの job が番を待つ。 -/
inductive Phase (δ ρ : Type) where
  | none
  | operationPending (request : δ)
  | busy (request : δ)
  | donePending (result : ρ)
  deriving DecidableEq, Repr

namespace Phase

variable {δ ρ : Type}

/-- `Sender_Send` など。前の操作が終わっていなければ故障する。 -/
def send : Phase δ ρ → δ → Except Fault (Phase δ ρ)
  | .none, request => .ok (.operationPending request)
  | _, _ => .error (.reject .failed)

/-- `Done`。操作を受けていなければ故障する。 -/
def done : Phase δ ρ → ρ → Except Fault (Phase δ ρ)
  | .busy _, result => .ok (.donePending result)
  | _, _ => .error (.reject .failed)

end Phase

end Flow
