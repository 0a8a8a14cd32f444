/-
Whose tokens a frame spends.  `handle` finds the connection by user and device
and never compares its session with the one the frame came in on.
-/
import FlzChat.Hub

namespace FlzChat

namespace Server

/-- The registry after the rate check and the touch that follows it. -/
def charged (cfg : ChatConfig) (nowMs : Int) (uid : UInt64) (did : StdString)
    (s : Server) : SessionRegistry :=
  let spent := s.spendToken cfg nowMs uid did
  if spent.1 then spent.2.registry.touch uid did nowMs else spent.2.registry

/-- A dispatched frame is handed to `dispatchFrame`; whatever else becomes of
a frame, the registry it leaves is the charged one. -/
theorem handle_text {P : Platform} {cfg : ChatConfig} {clock : Clock}
    {request : HttpRequest} {uid : UInt64} {did : StdString}
    (hidentity : identity P request = (uid, did)) (huid : uid ≠ 0)
    (hdid : did ≠ []) (data : StdString) (session : SessionId) (s : Server) :
    (s.handle P cfg clock request true data session).2.registry =
        s.charged cfg clock.nowMs uid did ∧
      ∀ frame, (s.spendToken cfg clock.nowMs uid did).1 = true →
        parseClientFrame P data = .ok (.ok frame) →
        s.handle P cfg clock request true data session =
          { (s.spendToken cfg clock.nowMs uid did).2 with
            registry := s.charged cfg clock.nowMs uid did }.dispatchFrame P cfg
              clock uid did session frame := by
  simp only [handle, charged]
  rw [hidentity]
  simp only [Bool.true_eq_false, huid, hdid, or_self, if_false]
  rcases s.spendToken cfg clock.nowMs uid did with ⟨_ | _, s'⟩
  · simp [sendError, sendFrame]
  · simp only [if_true]
    cases parseClientFrame P data with
    | error thrown => simp
    | ok parsed =>
        cases parsed with
        | error err => simp [sendError, sendFrame]
        | ok frame =>
            constructor
            · obtain ⟨_, hdoes, _⟩ := answered_dispatchFrame P cfg clock
                (fun _ _ => False) uid did session frame _
              exact hdoes.registry_eq fun _ _ => id
            · rintro _ _ ⟨⟩
              rfl

/-- What the charge does to the registered connections. -/
theorem get_charged (cfg : ChatConfig) (nowMs : Int) (uid : UInt64)
    (did : StdString) (s : Server) (u : UInt64) (d : StdString) :
    (s.charged cfg nowMs uid did).get u d =
      if u = uid ∧ d = did then
        (s.registry.get uid did).map fun c =>
          let spent := c.consumeToken nowMs cfg.chat.frameRateLimitPerSecond.toInt
          if spent.1 then spent.2.touch nowMs else spent.2
      else s.registry.get u d := by
  unfold charged spendToken
  cases hget : s.registry.get uid did with
  | none =>
      simp only [if_true, SessionRegistry.touch, SessionRegistry.get_modify, hget,
        Option.map_none]
  | some conn =>
      simp only [Option.map_some]
      by_cases hspent : (conn.consumeToken nowMs
          cfg.chat.frameRateLimitPerSecond.toInt).1 = true
      · simp only [hspent, if_true, SessionRegistry.touch,
          SessionRegistry.get_modify, hget, and_self, Option.map_some]
        split_ifs <;> rfl
      · simp only [hspent, if_false, SessionRegistry.get_modify, hget,
          Option.map_some, Bool.false_eq_true]

end Server

namespace Hub

/-- The registry after a text frame on a connection. -/
def afterFrame (P : Platform) (cfg : ChatConfig) (clock : Clock)
    (data : StdString) (login : Login) (hub : Hub) : SessionRegistry :=
  (hub.server.handle P cfg clock login.request true data
    login.session).2.registry

theorem Sound.get_afterFrame {P : Platform} {hub : Hub} (hsound : Sound P hub)
    (cfg : ChatConfig) (clock : Clock) (data : StdString) {login : Login}
    (hmem : login ∈ hub.opened) (u : UInt64) (d : StdString) :
    (hub.afterFrame P cfg clock data login).get u d =
      if u = login.userId ∧ d = login.deviceId then
        (hub.registry.get login.userId login.deviceId).map fun c =>
          let spent := c.consumeToken clock.nowMs
            cfg.chat.frameRateLimitPerSecond.toInt
          if spent.1 then spent.2.touch clock.nowMs else spent.2
      else hub.registry.get u d := by
  obtain ⟨hidentity, hid, hdevice⟩ := hsound.identified login hmem
  simp only [afterFrame]
  rw [(Server.handle_text hidentity hid hdevice data login.session _).1]
  exact Server.get_charged cfg clock.nowMs _ _ hub.server u d

section

variable {P : Platform} {hub : Hub} (cfg : ChatConfig) (clock : Clock)
  (data : StdString) {login : Login}

end

namespace FrameTokensWitness

open HubWitness

def ping : StdString := lit "\x7b\"type\":\"ping\"\x7d"

/-- The connection of a session as its login leaves it. -/
def fresh (session : SessionId) : OnlineConn :=
  OnlineConn.create 7 (lit "d1") session none 0 20

end FrameTokensWitness

end Hub

end FlzChat
