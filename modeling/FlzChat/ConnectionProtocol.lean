/-
The protocol of the broker library.  A connection is allocated, given a socket,
opened and logged in to, set up call by call, worked with, bidden goodbye and
destroyed; the clients make every call in its place, and a call that fails leads
to the end of the connection.
-/
import FlzChat.ConnectionSetup

namespace FlzChat

/-- How far a connection has got.  One that is logged in to has still to be set
up by some calls, and is worked with when there is none left; `doomed` is one that
fails before it has logged in, `quitting` one that fails afterwards. -/
inductive Link where
  | absent
  | allocated
  | hasSocket
  | opened
  | doomed
  | settingUp (calls : List AmqpCall)
  | quitting
  | leaving
  | left
deriving DecidableEq

/-- What a client does with a connection: the calls that set it up, in order, and
those it works with. -/
structure Role where
  setup : List AmqpCall
  works : AmqpCall → Bool

/-- The requests that have to succeed. -/
def AmqpCall.isRequest : AmqpCall → Bool
  | channelOpen => true
  | basicQos _ => true
  | exchangeDeclare _ _ _ => true
  | queueDeclare _ _ _ => true
  | queueBind _ _ _ => true
  | basicConsume _ _ _ => true
  | basicPublish _ _ _ _ _ => true
  | _ => false

/-- The calls on a channel that may fail. -/
def AmqpCall.isTraffic : AmqpCall → Bool
  | consumeMessage => true
  | basicAck _ => true
  | basicNack _ _ => true
  | _ => false

namespace Link

/-- Where a call leads; `none` where it is out of place. -/
def next (role : Role) : Link → Outcome → Option Link
  | absent, (.newConnection, ok) => some (if ok then allocated else absent)
  | allocated, (.tcpSocketNew, ok) => some (if ok then hasSocket else doomed)
  | hasSocket, (.socketOpen, ok) => some (if ok then opened else doomed)
  | opened, (.login, ok) => some (if ok then settingUp role.setup else doomed)
  | doomed, (.destroyConnection, _) => some absent
  | settingUp (expected :: calls), (call, ok) =>
      if call = expected ∧ call.isRequest then
        some (if ok then settingUp calls else quitting)
      else none
  | settingUp [], (.channelClose, _) => some leaving
  | settingUp [], (call, ok) =>
      if role.works call = false then none
      else if call.isRequest then some (if ok then settingUp [] else quitting)
      else if call.isTraffic then some (settingUp [])
      else none
  | quitting, (.channelClose, _) => some leaving
  | leaving, (.connectionClose, _) => some left
  | left, (.destroyConnection, _) => some absent
  | _, _ => none

/-- Where a record of calls leads. -/
def walk (role : Role) (link : Link) (record : List Outcome) : Option Link :=
  record.foldlM (next role) link

variable {role : Role}

theorem walk_append {link mid : Link} {record record' : List Outcome}
    (hfirst : link.walk role record = some mid) :
    link.walk role (record ++ record') = mid.walk role record' := by
  rw [walk] at hfirst
  rw [walk, List.foldlM_append, hfirst]
  rfl

/-- A connection that has been allocated and not destroyed. -/
def held (link : Link) : Nat :=
  if link = absent then 0 else 1

/-- How many connections a record allocates. -/
def allocations (record : List Outcome) : Nat :=
  record.count (.newConnection, true)

/-- How many it destroys. -/
def destructions (record : List Outcome) : Nat :=
  record.countP fun outcome => decide (outcome.1 = .destroyConnection)

/-- A connection that is set up or worked with neither comes nor goes. -/
theorem held_next_settingUp {calls : List AmqpCall} {link' : Link} {call : AmqpCall}
    {ok : Bool} (hnext : (settingUp calls).next role (call, ok) = some link') :
    allocations [(call, ok)] + (settingUp calls).held =
      destructions [(call, ok)] + link'.held := by
  have hstays : call ≠ .newConnection ∧ call ≠ .destroyConnection ∧
      link' ≠ absent := by
    cases calls with
    | nil =>
        cases call <;> cases ok <;>
          simp [next, AmqpCall.isRequest, AmqpCall.isTraffic] at hnext ⊢ <;>
          simp [← hnext]
    | cons expected calls =>
        simp only [next, Option.ite_none_right_eq_some, Option.some.injEq] at hnext
        obtain ⟨⟨_, hrequest⟩, rfl⟩ := hnext
        cases call <;> cases ok <;> simp [AmqpCall.isRequest] at hrequest ⊢
  simp [allocations, destructions, held, hstays]

theorem held_next {link link' : Link} {outcome : Outcome}
    (hnext : link.next role outcome = some link') :
    allocations [outcome] + link.held = destructions [outcome] + link'.held := by
  obtain ⟨call, ok⟩ := outcome
  cases link with
  | settingUp calls => exact held_next_settingUp hnext
  | _ =>
      cases call <;> simp only [next, reduceCtorEq, Option.some.injEq] at hnext
      all_goals
        subst hnext
        cases ok <;> rfl

/-- What a record in order has allocated it has destroyed, but for the one
connection it may still hold. -/
theorem held_walk {link link' : Link} {record : List Outcome}
    (hwalk : link.walk role record = some link') :
    allocations record + link.held = destructions record + link'.held := by
  induction record generalizing link with
  | nil =>
      obtain rfl : link = link' := Option.some.inj hwalk
      rfl
  | cons outcome record ih =>
      rw [walk, List.foldlM_cons] at hwalk
      cases hnext : link.next role outcome with
      | none =>
          rw [hnext] at hwalk
          contradiction
      | some mid =>
          rw [hnext] at hwalk
          have hfirst := held_next hnext
          have hrest := ih hwalk
          have hsplit : outcome :: record = [outcome] ++ record := rfl
          simp only [allocations, destructions] at hfirst hrest ⊢
          rw [hsplit, List.count_append, List.countP_append]
          omega

/-- Calls in order, each of which leads to `bad` where it fails. -/
inductive Chain (role : Role) (bad : Link) : Link → List AmqpCall → Link → Prop where
  | nil (link : Link) : Chain role bad link [] link
  | cons {link mid link' : Link} {call : AmqpCall} {calls : List AmqpCall}
      (hok : link.next role (call, true) = some mid)
      (hfail : link.next role (call, false) = some bad)
      (hrest : Chain role bad mid calls link') :
      Chain role bad link (call :: calls) link'

/-- Setting up goes on with what has still to be done. -/
theorem chain_setup {calls : List AmqpCall}
    (hcalls : ∀ call ∈ calls, call.isRequest = true) (rest : List AmqpCall) :
    Chain role quitting (settingUp (calls ++ rest)) calls (settingUp rest) := by
  induction calls with
  | nil => exact Chain.nil _
  | cons call calls ih =>
      have hcall := hcalls call List.mem_cons_self
      have hrest := ih fun other hother =>
        hcalls other (List.mem_cons_of_mem call hother)
      have hnext : ∀ ok, (settingUp (call :: calls ++ rest)).next role (call, ok) =
          some (if ok then settingUp (calls ++ rest) else quitting) :=
        fun ok => if_pos ⟨rfl, hcall⟩
      exact Chain.cons (hnext true) (hnext false) hrest

/-- A request of a client at work. -/
theorem chain_work {call : AmqpCall} (hworks : role.works call = true)
    (hcall : call.isRequest = true) :
    Chain role quitting (settingUp []) [call] (settingUp []) := by
  have hnext : ∀ ok, (settingUp []).next role (call, ok) =
      some (if ok then settingUp [] else quitting) := by
    intro ok
    cases call <;> first | contradiction | simp [next, hworks, AmqpCall.isRequest]
  exact Chain.cons (hnext true) (hnext false) (Chain.nil _)

end Link

namespace AmqpClient

/-- The calls between two states lead from one link to the other. -/
def Moves (role : Role) (replies : Replies) (client client' : AmqpClient)
    (link link' : Link) : Prop :=
  ∃ calls, client'.calls = client.calls ++ calls ∧
    link.walk role (calls.map fun call => (call, replies call)) = some link'

section

variable {role : Role} {replies : Replies} {client client' : AmqpClient}
  {link link' : Link}

theorem Moves.refl (client : AmqpClient) (link : Link) :
    Moves role replies client client link link :=
  ⟨[], (List.append_nil _).symm, rfl⟩

theorem Moves.trans {client'' : AmqpClient} {link'' : Link}
    (hfirst : Moves role replies client client' link link')
    (hsecond : Moves role replies client' client'' link' link'') :
    Moves role replies client client'' link link'' := by
  obtain ⟨calls, hcalls, hwalk⟩ := hfirst
  obtain ⟨calls', hcalls', hwalk'⟩ := hsecond
  refine ⟨calls ++ calls', by rw [hcalls', hcalls, List.append_assoc], ?_⟩
  rw [List.map_append, Link.walk_append hwalk]
  exact hwalk'

theorem Moves.outcomes (hmoves : Moves role replies client client' link link') :
    link.walk role (outcomes replies client client') = some link' := by
  obtain ⟨calls, hcalls, hwalk⟩ := hmoves
  rw [outcomes_of_calls hcalls]
  exact hwalk

theorem moves_request {call : AmqpCall}
    (hnext : link.next role (call, replies call) = some link')
    (client : AmqpClient) :
    Moves role replies client (client.request replies call).2 link link' := by
  refine ⟨[call], rfl, ?_⟩
  simp only [List.map_singleton, Link.walk, List.foldlM_cons, List.foldlM_nil,
    hnext]
  rfl

theorem moves_requestAll (replies : Replies) {bad : Link}
    {calls : List AmqpCall} (hchain : Link.Chain role bad link calls link')
    (client : AmqpClient) :
    Moves role replies client (requestAll replies calls client).2 link
      (cond (requestAll replies calls client).1 link' bad) := by
  induction hchain generalizing client with
  | nil link => exact Moves.refl client link
  | @cons link mid link' call calls hok hfail hrest ih =>
      simp only [requestAll]
      cases hreply : replies call with
      | true =>
          have hnext : link.next role (call, replies call) = some mid := by
            rw [hreply]
            exact hok
          have hfirst := moves_request hnext client
          have hlater := ih (client.request replies call).2
          simp only [request, hreply] at hfirst hlater ⊢
          exact hfirst.trans hlater
      | false =>
          have hnext : link.next role (call, replies call) = some bad := by
            rw [hreply]
            exact hfail
          have hfirst := moves_request hnext client
          simp only [request, hreply] at hfirst ⊢
          exact hfirst

/-- A connection that has been logged in to is left and destroyed. -/
theorem moves_close (hconn : client.conn = true)
    (hconnected : client.connected = true)
    (hlink : link = .settingUp [] ∨ link = .quitting) :
    Moves role replies client client.close link .absent := by
  refine ⟨[.channelClose, .connectionClose, .destroyConnection], ?_, ?_⟩
  · simp [close, hconn, hconnected]
  · rcases hlink with rfl | rfl <;> rfl

/-- One that has not is destroyed. -/
theorem moves_close_doomed (hconn : client.conn = true)
    (hconnected : client.connected = false) :
    Moves role replies client client.close .doomed .absent := by
  refine ⟨[.destroyConnection], ?_, rfl⟩
  simp [close, hconn, hconnected]

theorem moves_close_absent (role : Role) (replies : Replies)
    (hconn : client.conn = false) :
    Moves role replies client client.close .absent .absent :=
  ⟨[], by simp [close, hconn], rfl⟩

end

/-- Where the connection of a client between two calls is. -/
def link (client : AmqpClient) : Link :=
  if client.connected then .settingUp [] else .absent

/-- Between two calls the client holds a connection exactly if it is
connected. -/
def Whole (client : AmqpClient) : Prop :=
  client.conn = client.connected

/-- The calls between two states were made in their places. -/
structure Disciplined (role : Role) (replies : Replies)
    (client client' : AmqpClient) : Prop where
  whole : client'.Whole
  moves : Moves role replies client client' client.link client'.link

section

variable {role : Role} {replies : Replies} {client client' : AmqpClient}

theorem whole_close (client : AmqpClient) : client.close.Whole := rfl

theorem link_of_connected (hconnected : client.connected = true) :
    client.link = .settingUp [] := by
  rw [link, hconnected, if_pos rfl]

theorem Disciplined.refl (role : Role) (replies : Replies)
    (hwhole : client.Whole) : Disciplined role replies client client :=
  ⟨hwhole, Moves.refl client _⟩

theorem Disciplined.trans {client'' : AmqpClient}
    (hfirst : Disciplined role replies client client')
    (hsecond : Disciplined role replies client' client'') :
    Disciplined role replies client client'' :=
  ⟨hsecond.whole, hfirst.moves.trans hsecond.moves⟩

theorem disciplined_close (role : Role) (replies : Replies)
    (hwhole : client.Whole) : Disciplined role replies client client.close := by
  refine ⟨whole_close client, ?_⟩
  rw [Whole] at hwhole
  cases hconnected : client.connected with
  | true =>
      rw [hconnected] at hwhole
      rw [link_of_connected hconnected]
      exact moves_close hwhole hconnected (Or.inl rfl)
  | false =>
      rw [hconnected] at hwhole
      simp only [link, hconnected]
      exact moves_close_absent role replies hwhole

theorem requestAll_whole (hwhole : client.Whole) (calls : List AmqpCall) :
    (requestAll replies calls client).2.Whole := by
  rw [Whole, requestAll_conn, requestAll_connected]
  exact hwhole

/-- Traffic on a connection that is up; it may fail. -/
theorem disciplined_traffic (hwhole : client.Whole)
    (hconnected : client.connected = true) {call : AmqpCall}
    (hworks : role.works call = true) (hcall : call.isTraffic = true) :
    Disciplined role replies client (requestAll replies [call] client).2 := by
  have hnext : (Link.settingUp []).next role (call, replies call) =
      some (.settingUp []) := by
    cases call <;>
      first | contradiction |
        simp [Link.next, hworks, AmqpCall.isRequest, AmqpCall.isTraffic]
  have hmoves := moves_request hnext client
  have hstill : (client.request replies call).2.link = client.link := rfl
  rw [← link_of_connected hconnected] at hmoves
  rw [requestAll_singleton]
  exact ⟨hwhole, by rw [hstill]; exact hmoves⟩

/-- A request on a connection that is up; the client gives it up where the
request fails. -/
theorem disciplined_request (hwhole : client.Whole)
    (hconnected : client.connected = true) {call : AmqpCall}
    (hworks : role.works call = true) (hcall : call.isRequest = true) :
    Disciplined role replies client
      (if (requestAll replies [call] client).1 then
        (requestAll replies [call] client).2
      else (requestAll replies [call] client).2.close) := by
  have hmoves := moves_requestAll replies (Link.chain_work hworks hcall) client
  have hconn : client.conn = true := hwhole.trans hconnected
  rw [← link_of_connected hconnected] at hmoves
  split_ifs with hok
  · rw [hok, cond_true] at hmoves
    refine ⟨requestAll_whole hwhole [call], ?_⟩
    have hlink : (requestAll replies [call] client).2.link = client.link := by
      rw [link, link, requestAll_connected]
    rw [hlink]
    exact hmoves
  · rw [Bool.not_eq_true] at hok
    rw [hok, cond_false] at hmoves
    refine ⟨whole_close _, hmoves.trans ?_⟩
    exact moves_close (by rw [requestAll_conn, hconn])
      (by rw [requestAll_connected, hconnected]) (Or.inr rfl)

/-! Setting up. -/

/-- `Connect` leads to a login or leaves nothing behind. -/
theorem moves_connect (role : Role) (replies : Replies) (hwhole : client.Whole)
    (hconnected : client.connected = false) :
    (client.connect replies).2.conn = (client.connect replies).1 ∧
      (client.connect replies).2.connected = (client.connect replies).1 ∧
        Moves role replies client (client.connect replies).2 .absent
          (cond (client.connect replies).1 (.settingUp role.setup) .absent) := by
  have hconn : client.conn = false := hwhole.trans hconnected
  have hclosed := moves_close_absent role replies hconn
  have hopen : Link.absent.next role (.newConnection, replies .newConnection) =
      some (if replies .newConnection then .allocated else .absent) := rfl
  have hnew := hclosed.trans (moves_request hopen client.close)
  simp only [connect]
  cases hreply : replies .newConnection with
  | false =>
      rw [hreply] at hnew
      simp only [request, hreply] at hnew ⊢
      exact ⟨rfl, rfl, hnew⟩
  | true =>
      rw [hreply] at hnew
      simp only [request, hreply] at hnew ⊢
      have hchain : Link.Chain role .doomed .allocated
          [.tcpSocketNew, .socketOpen, .login] (.settingUp role.setup) :=
        .cons rfl rfl (.cons rfl rfl (.cons rfl rfl (.nil _)))
      let fresh : AmqpClient := { client.close with
        calls := client.close.calls ++ [.newConnection], conn := true }
      have hset := moves_requestAll replies hchain fresh
      have hheld : (requestAll replies [.tcpSocketNew, .socketOpen, .login]
          fresh).2.conn = true := requestAll_conn replies _ fresh
      have hdown : (requestAll replies [.tcpSocketNew, .socketOpen, .login]
          fresh).2.connected = false := requestAll_connected replies _ fresh
      rcases hresult : requestAll replies [.tcpSocketNew, .socketOpen, .login]
        fresh with ⟨_ | _, next⟩
      · rw [hresult] at hset hheld hdown
        exact ⟨rfl, rfl, hnew.trans (hset.trans (moves_close_doomed hheld hdown))⟩
      · rw [hresult] at hset hheld
        exact ⟨hheld, rfl, hnew.trans hset⟩

/-- A step of the set-up makes the first of the calls that have still to be made,
or leads to the end. -/
def Advances (role : Role) (replies : Replies) (calls : List AmqpCall)
    (step : AmqpClient → Bool × AmqpClient) : Prop :=
  ∀ (rest : List AmqpCall) (client : AmqpClient), client.connected = true →
    (step client).2.conn = client.conn ∧
      (step client).2.connected = client.connected ∧
        Moves role replies client (step client).2 (.settingUp (calls ++ rest))
          (cond (step client).1 (.settingUp rest) .quitting)

theorem advances_requestAll {calls : List AmqpCall}
    (hcalls : ∀ call ∈ calls, call.isRequest = true) :
    Advances role replies calls (requestAll replies calls) :=
  fun rest client _ => ⟨requestAll_conn replies calls client,
    requestAll_connected replies calls client,
    moves_requestAll replies (Link.chain_setup hcalls rest) client⟩

theorem advances_openChannel (prefetchCount : Nat) :
    Advances role replies
      (.channelOpen :: if 0 < prefetchCount then [.basicQos prefetchCount] else [])
      (openChannel replies prefetchCount) := by
  intro rest client hconnected
  have hopen : openChannel replies prefetchCount client =
      requestAll replies (.channelOpen ::
        if 0 < prefetchCount then [.basicQos prefetchCount] else []) client := by
    simp only [openChannel, hconnected, Bool.true_eq_false, if_false]
  have hrequests : ∀ call ∈ AmqpCall.channelOpen ::
      (if 0 < prefetchCount then [.basicQos prefetchCount] else []),
      call.isRequest = true := by
    split_ifs <;> simp [AmqpCall.isRequest]
  rw [hopen]
  exact advances_requestAll hrequests rest client hconnected

theorem advances_declareChatTopology :
    Advances role replies chatTopology (declareChatTopology replies) :=
  advances_requestAll (by simp [chatTopology, AmqpCall.isRequest])

theorem advances_declareForPublisher :
    Advances role replies (businessExchange :: chatTopology)
      (declareForPublisher replies) := by
  intro rest client hconnected
  have hbusiness : Advances role replies [businessExchange]
      (declareBusinessExchange replies) :=
    advances_requestAll (by simp [businessExchange, AmqpCall.isRequest])
  obtain ⟨hconn, hstill, hmoves⟩ :=
    hbusiness (chatTopology ++ rest) client hconnected
  simp only [declareForPublisher]
  rcases hfirst : declareBusinessExchange replies client with ⟨_ | _, next⟩
  · rw [hfirst] at hconn hstill hmoves
    exact ⟨hconn, hstill, hmoves⟩
  · rw [hfirst] at hconn hstill hmoves
    obtain ⟨hconn', hstill', hmoves'⟩ :=
      advances_declareChatTopology rest next (hstill.trans hconnected)
    exact ⟨hconn'.trans hconn, hstill'.trans hstill, hmoves.trans hmoves'⟩

/-- The steps after `Connect` set the connection up or leave nothing behind. -/
theorem moves_runSteps {steps : List (List AmqpCall × (AmqpClient → Bool × AmqpClient))}
    (hsteps : ∀ step ∈ steps, Advances role replies step.1 step.2)
    {client : AmqpClient} (hconn : client.conn = true)
    (hconnected : client.connected = true) :
    let result := runSteps (steps.map (·.2)) client
    result.2.conn = result.1 ∧ result.2.connected = result.1 ∧
      Moves role replies client result.2 (.settingUp (steps.flatMap (·.1)))
        (cond result.1 (.settingUp []) .absent) := by
  induction steps generalizing client with
  | nil => exact ⟨hconn, hconnected, Moves.refl client (.settingUp [])⟩
  | cons step steps ih =>
      obtain ⟨hkept, hstill, hmoves⟩ := hsteps step List.mem_cons_self
        (steps.flatMap (·.1)) client hconnected
      simp only [List.map_cons, List.flatMap_cons, runSteps]
      rcases hstep : step.2 client with ⟨_ | _, next⟩
      · rw [hstep] at hkept hstill hmoves
        exact ⟨rfl, rfl, hmoves.trans (moves_close (hkept.trans hconn)
          (hstill.trans hconnected) (Or.inr rfl))⟩
      · rw [hstep] at hkept hstill hmoves
        obtain ⟨hdone, hup, hlater⟩ := ih (fun other hother =>
          hsteps other (List.mem_cons_of_mem step hother))
          (hkept.trans hconn) (hstill.trans hconnected)
        exact ⟨hdone, hup, hmoves.trans hlater⟩

/-- `EnsureConnected` reuses the connection there is, or it sets one up and
leaves none behind where that fails. -/
theorem disciplined_ensureConnected
    {steps : List (List AmqpCall × (AmqpClient → Bool × AmqpClient))}
    (hsteps : ∀ step ∈ steps, Advances role replies step.1 step.2)
    (hsetup : role.setup = steps.flatMap (·.1)) (hwhole : client.Whole)
    (name : StdString) (metrics : ChatMetrics) :
    let result := client.ensureConnected replies name (steps.map (·.2)) metrics
    Disciplined role replies client result.2.1 ∧
      result.2.1.connected = result.1 := by
  have hresult : ∀ {ok : Bool} {last : AmqpClient}, client.connected = false →
      last.conn = ok → last.connected = ok →
        Moves role replies client last .absent (cond ok (.settingUp []) .absent) →
          Disciplined role replies client last := by
    intro ok last hdown hconn hconnected hmoves
    refine ⟨hconn.trans hconnected.symm, ?_⟩
    have hlink : last.link = cond ok (.settingUp []) .absent := by
      rw [link, hconnected]
      cases ok <;> rfl
    have hbefore : client.link = .absent := by rw [link, hdown]; rfl
    rw [hlink, hbefore]
    exact hmoves
  simp only [ensureConnected]
  cases hdown : client.connected with
  | true => exact ⟨Disciplined.refl role replies hwhole, hdown⟩
  | false =>
      obtain ⟨hconn, hconnected, hmoves⟩ :=
        moves_connect role replies hwhole hdown
      simp only [Bool.false_eq_true, if_false]
      rcases hconnect : client.connect replies with ⟨_ | _, next⟩
      · rw [hconnect] at hconn hconnected hmoves
        exact ⟨hresult hdown hconn hconnected hmoves, hconnected⟩
      · rw [hconnect] at hconn hconnected hmoves
        rw [hsetup] at hmoves
        obtain ⟨hdone, hup, hlater⟩ := moves_runSteps hsteps hconn hconnected
        have hset := hmoves.trans hlater
        simp only
        rcases hrun : runSteps (steps.map (·.2)) next with ⟨_ | _, last⟩
        · rw [hrun] at hdone hup hset ⊢
          exact ⟨hresult hdown hdone hup hset, hup⟩
        · rw [hrun] at hdone hup hset ⊢
          exact ⟨hresult hdown hdone hup hset, hup⟩

end

end AmqpClient

end FlzChat
