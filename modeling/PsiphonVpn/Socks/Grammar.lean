import PsiphonVpn.Socks.Model

/-!
# handshake の文法

server の返事がどうあるべきかを、client の動きとは別に書く。返事は三つの部分からなる。

1. 版 5 と、申し出た方法の一つ
2. 選ばれた方法が利用者名と password で、長さがどちらも 1 から 255 なら、`1, 0`。長さがそうでなければ、続きはない
3. 版 5、成功、予約の byte、address の種類、その種類の address と port

`Starts` は、byte の列がこの形の列で始まることである。client は返事を message ごとに読むので、
先頭の message ごとに `Starts` を読み解く補題を置く。
-/

namespace Socks

open Infra Net

/-- 方法を選んだ後に、server が認証について送る byte。 -/
def AuthInfo.answer : AuthInfo → Option (List UInt8)
  | .none => some []
  | .password user pass =>
    if user.length = 0 ∨ 255 < user.length ∨ pass.length = 0 ∨ 255 < pass.length then Option.none
    else some [1, 0]

/-- CONNECT への返事。 -/
def Reply (p : List UInt8) : Prop :=
  ∃ rsv atyp addr, addrLen atyp = some addr.length ∧ p = [socksVersion, 0, rsv, atyp] ++ addr

/-- 方法 `a` が選ばれ、認証が済むまでの byte。同じ種類の方法をいくつも申し出た時は、最初のものが使われる。 -/
def Authenticates (cfg : Config) (a : AuthInfo) (p : List UInt8) : Prop :=
  cfg.authInfo.find? (·.authType = a.authType) = some a ∧
    ∃ ans, a.answer = some ans ∧ p = [socksVersion, a.authType] ++ ans

/-- handshake の全体。 -/
def Handshake (cfg : Config) (a : AuthInfo) (p : List UInt8) : Prop :=
  ∃ auth reply, Authenticates cfg a auth ∧ Reply reply ∧ p = auth ++ reply

/-- handshake で始まる byte の列。 -/
def Starts (cfg : Config) (stream : List UInt8) : Prop :=
  ∃ a p, Handshake cfg a p ∧ p <+: stream

/-! ## client が送る message -/

def hello (cfg : Config) : List UInt8 :=
  [socksVersion, UInt8.ofNat cfg.authInfo.length] ++ cfg.authInfo.map AuthInfo.authType

def passwordMessage (username password : List UInt8) : List UInt8 :=
  [1, UInt8.ofNat username.length] ++ username ++ [UInt8.ofNat password.length] ++ password

def request (cfg : Config) : List UInt8 :=
  [socksVersion, 1, 0, atypOf cfg.destAddr] ++ cfg.destAddr.bytes

/-- 方法 `a` が選ばれた時に送る message。それぞれに、その前に受け取っているべき byte を添える。 -/
def messages (cfg : Config) (a : AuthInfo) : List (List UInt8 × List UInt8) :=
  match a with
  | .none => [([], hello cfg), ([socksVersion, 0], request cfg)]
  | .password username password =>
    [([], hello cfg), ([socksVersion, 2], passwordMessage username password),
      ([socksVersion, 2, 1, 0], request cfg)]

/-! ## 先頭の message を読み解く -/

variable {cfg : Config}

theorem Reply.length {p : List UInt8} (h : Reply p) : 4 ≤ p.length := by
  obtain ⟨rsv, atyp, addr, -, rfl⟩ := h
  simp

/-- 最初の返事が届ききっていない列。 -/
theorem not_starts_short {l : List UInt8} (h : l.length < 2) : ¬ Starts cfg l := by
  rintro ⟨a, p, ⟨auth, reply, ⟨-, ans, -, rfl⟩, hreply, rfl⟩, hpre⟩
  have hlen := hpre.length_le
  have hrep := hreply.length
  simp only [List.length_append, List.length_cons] at hlen
  omega

/-- 最初の返事。 -/
theorem starts_hello {ver method : UInt8} {rest : List UInt8} :
    Starts cfg (ver :: method :: rest) ↔ ver = socksVersion ∧
      ∃ a ans, cfg.authInfo.find? (·.authType = method) = some a ∧ a.answer = some ans ∧
        ∃ reply, Reply reply ∧ ans ++ reply <+: rest := by
  constructor
  · rintro ⟨a, p, ⟨auth, reply, ⟨hfind, ans, hans, rfl⟩, hreply, rfl⟩, hpre⟩
    simp only [List.cons_append, List.nil_append, List.cons_prefix_cons] at hpre
    obtain ⟨hver, hmethod, hrest⟩ := hpre
    exact ⟨hver.symm, a, ans, by rw [← hmethod]; exact hfind, hans, reply, hreply, hrest⟩
  · rintro ⟨rfl, a, ans, hfind, hans, reply, hreply, hrest⟩
    have htype : a.authType = method := by simpa using List.find?_some hfind
    subst htype
    refine ⟨a, _, ⟨_, reply, ⟨hfind, ans, hans, rfl⟩, hreply, rfl⟩, ?_⟩
    simpa only [List.cons_append, List.nil_append, List.cons_prefix_cons, true_and] using hrest

/-- CONNECT への返事の先頭が届ききっていない列。 -/
theorem not_reply_short {l : List UInt8} (h : l.length < 4) :
    ¬ ∃ reply, Reply reply ∧ reply <+: l := by
  rintro ⟨reply, hreply, hpre⟩
  have hlen := hpre.length_le
  have hrep := hreply.length
  omega

/-- CONNECT への返事の先頭。 -/
theorem reply_header {ver rep rsv atyp : UInt8} {rest : List UInt8} :
    (∃ reply, Reply reply ∧ reply <+: ver :: rep :: rsv :: atyp :: rest) ↔
      ver = socksVersion ∧ rep = 0 ∧ ∃ n, addrLen atyp = some n ∧ n ≤ rest.length := by
  constructor
  · rintro ⟨_, ⟨rsv', atyp', addr, haddr, rfl⟩, hpre⟩
    simp only [List.cons_append, List.nil_append, List.cons_prefix_cons] at hpre
    obtain ⟨hver, hrep, -, hatyp, hrest⟩ := hpre
    exact ⟨hver.symm, hrep.symm, addr.length, by rw [← hatyp]; exact haddr, hrest.length_le⟩
  · rintro ⟨rfl, rfl, n, hn, hle⟩
    refine ⟨_, ⟨rsv, atyp, rest.take n, ?_, rfl⟩, ?_⟩
    · rw [hn, List.length_take, Nat.min_eq_left hle]
    · simpa only [List.cons_append, List.nil_append, List.cons_prefix_cons, true_and] using
        List.take_prefix n rest

/-- password の認証が選ばれた後の列。 -/
theorem starts_password {user pass rest : List UInt8}
    (hfind : cfg.authInfo.find? (·.authType = 2) = some (.password user pass))
    (hans : (AuthInfo.password user pass).answer = some [1, 0]) :
    Starts cfg ([socksVersion, 2] ++ rest) ↔ ∃ reply, Reply reply ∧ [1, 0] ++ reply <+: rest := by
  show Starts cfg (socksVersion :: 2 :: rest) ↔ _
  rw [starts_hello]
  constructor
  · rintro ⟨-, a, ans, hfind', hans', hreply⟩
    obtain rfl := Option.some.inj (hfind.symm.trans hfind')
    obtain rfl := Option.some.inj (hans.symm.trans hans')
    exact hreply
  · intro hreply
    exact ⟨rfl, _, _, hfind, hans, hreply⟩

/-- 認証が済んだ後の列。 -/
theorem starts_authenticated {a : AuthInfo} {auth rest : List UInt8}
    (h : Authenticates cfg a auth) :
    Starts cfg (auth ++ rest) ↔ ∃ reply, Reply reply ∧ reply <+: rest := by
  obtain ⟨hfind, ans, hans, rfl⟩ := h
  show Starts cfg (socksVersion :: a.authType :: (ans ++ rest)) ↔ _
  rw [starts_hello]
  constructor
  · rintro ⟨-, a', ans', hfind', hans', reply, hreply, hpre⟩
    obtain rfl := Option.some.inj (hfind.symm.trans hfind')
    obtain rfl := Option.some.inj (hans.symm.trans hans')
    exact ⟨reply, hreply, (List.prefix_append_right_inj ans).mp hpre⟩
  · rintro ⟨reply, hreply, hpre⟩
    exact ⟨rfl, a, ans, hfind, hans, reply, hreply, (List.prefix_append_right_inj ans).mpr hpre⟩

end Socks
