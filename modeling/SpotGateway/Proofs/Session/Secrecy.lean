import SpotGateway.Proofs.Http.Blank
import SpotGateway.Proofs.Session.Dialogue

/-!
# What credentials have a part in

Two sessions that differ in their credentials alone take the same course: everything that is
answered, tracked, looked up and counted is the same, and so are the requests, but for what stands in
the headers that carry credentials.

* `SigningScheme.secretHeaders` — the headers that credentials have a part in;
* `Session.withCredentials`, `Session.disguise` — a session with other credentials;
* `Session.requestOf_withCredentials`, `Session.start_withCredentials`,
  `Session.finish_withCredentials` — what they change of a request and of the two halves of a call;
* `Dialogue.Alike`, `Dialogue.alike_of_credentials` — two courses.
-/

set_option autoImplicit false

namespace SpotGateway

/-! ## Requests -/

open Authenticator in
/-- The headers that credentials have a part in: those that carry them, and the signature. -/
def SigningScheme.secretHeaders : SigningScheme → List String
  | .bearerToken => [keyHeader, secretHeader, bearerHeader]
  | .hmacSha256 => [keyHeader, secretHeader, bearerHeader, signatureHeader]

/-- The requests are the same, but for what stands in headers that credentials have a part in. -/
def Http.Request.Resembles (scheme : SigningScheme) (r₁ r₂ : Http.Request) : Prop :=
  r₁.blank scheme.secretHeaders = r₂.blank scheme.secretHeaders

namespace Authenticator

theorem blank_withKeys {names : List String}
    (hnames : ∀ h ∈ SigningScheme.secretHeaders .bearerToken, h ∈ names) (a₁ a₂ : Authenticator)
    (r : Http.Request) :
    (a₁.withKeys r).blank names = (a₂.withKeys r).blank names := by
  have hkey : keyHeader ∈ names := hnames _ (by decide)
  have hsecret : secretHeader ∈ names := hnames _ (by decide)
  have hbearer : bearerHeader ∈ names := hnames _ (by decide)
  simp only [withKeys, headers, List.foldl_cons, List.foldl_nil,
    Http.Request.blank_setHeader hkey, Http.Request.blank_setHeader hsecret,
    Http.Request.blank_setHeader hbearer]

/-- Credentials change nothing of a request but what stands in their headers. -/
theorem resembles_decorate (credentials₁ credentials₂ : Credentials) (scheme : SigningScheme)
    (clock : Checked Timestamp) (r : Http.Request) :
    Matched (Http.Request.Resembles scheme) (decorate ⟨credentials₁, scheme⟩ clock r)
      (decorate ⟨credentials₂, scheme⟩ clock r) := by
  unfold decorate
  cases scheme with
  | bearerToken => exact .ok (blank_withKeys (fun _ h => h) _ _ r)
  | hmacSha256 =>
    refine (Matched.refl (fun _ => rfl) clock).bind fun time time' htime => .ok ?_
    subst htime
    have hkeys := blank_withKeys (show ∀ h ∈ SigningScheme.secretHeaders .bearerToken,
      h ∈ SigningScheme.secretHeaders .hmacSha256 by decide)
      ⟨credentials₁, .hmacSha256⟩ ⟨credentials₂, .hmacSha256⟩ r
    have htimestamp : timestampHeader ∉ SigningScheme.hmacSha256.secretHeaders := by decide
    have hsignature : signatureHeader ∈ SigningScheme.hmacSha256.secretHeaders := by decide
    simp only [Http.Request.Resembles, Http.Request.blank_setHeader hsignature,
      Http.Request.blank_setHeader_of_not_mem htimestamp, hkeys]

end Authenticator

/-! ## Sessions -/

namespace Session

variable {s s' : Session} {now : Timestamp}

/-- The session with other credentials. -/
def withCredentials (s : Session) (c : Credentials) : Session :=
  { s with authenticator := { s.authenticator with credentials := c } }

/-- What comes of a session, for the session with other credentials. -/
def disguise {α : Type} (c : Credentials) (outcome : Session × α) : Session × α :=
  (outcome.1.withCredentials c, outcome.2)

/-- Sessions that are opened with different credentials differ in them alone. -/
theorem matched_create (config : Config) (c₁ c₂ : Credentials) :
    Matched (fun s₁ s₂ => s₂ = s₁.withCredentials c₂) (create config c₁) (create config c₂) := by
  unfold create
  refine (Matched.refl (fun _ => rfl) config.validate).bind fun _ _ _ => ?_
  cases Table.build Exchange.tiers with
  | error e => exact .error _
  | ok table => exact .ok rfl

/-- Requests of operations that are open to everyone are the same; others resemble each other. -/
def RequestAlike (scheme : SigningScheme) (e : Errand) (r₁ r₂ : Http.Request) : Prop :=
  if e.endpoint.needsAuthentication then r₁.Resembles scheme r₂ else r₁ = r₂

theorem requestOf_withCredentials (s : Session) (c : Credentials) (now : Timestamp) (e : Errand) :
    Matched (RequestAlike s.authenticator.scheme e) (s.requestOf now e)
      ((s.withCredentials c).requestOf now e) := by
  unfold requestOf RequestAlike
  cases e.endpoint.needsAuthentication with
  | true => exact Authenticator.resembles_decorate _ c _ _ _
  | false => exact .ok rfl

/-- Plans are made without credentials. -/
theorem plan_withCredentials (s : Session) (c : Credentials) (now : Timestamp) (call : Call) :
    (s.withCredentials c).plan now call = s.plan now call := by
  cases call <;> rfl

end Session

/-- The calls are the same, and so are their requests, but for what stands in headers that
credentials have a part in. -/
structure Pending.Alike (scheme : SigningScheme) (p₁ p₂ : Pending) : Prop where
  errand : p₂.errand = p₁.errand
  reservation : p₂.reservation = p₁.reservation
  sequence : p₂.sequence = p₁.sequence
  request : Session.RequestAlike scheme p₁.errand p₁.request p₂.request

namespace Session

variable {s s' : Session} {now : Timestamp}

/-- Both calls are on their way, or both came to the same end. -/
inductive StartsAlike (scheme : SigningScheme) (c : Credentials) :
    Session × Except GatewayError Pending → Session × Except GatewayError Pending → Prop where
  | sent {s : Session} {p₁ p₂ : Pending} (signs : s.authenticator.scheme = scheme)
      (alike : p₁.Alike scheme p₂) : StartsAlike scheme c (s, .ok p₁) (s.withCredentials c, .ok p₂)
  | ended {s : Session} (signs : s.authenticator.scheme = scheme) (error : GatewayError) :
      StartsAlike scheme c (s, .error error) (s.withCredentials c, .error error)

/-- Credentials change nothing of a call that is started but what stands in headers. -/
theorem start_withCredentials (s : Session) (c : Credentials) (now : Readings) (expired : Bool)
    (call : Call) :
    Matched (StartsAlike s.authenticator.scheme c) (s.start now expired call)
      ((s.withCredentials c).start now expired call) := by
  unfold start
  rw [plan_withCredentials]
  refine (Matched.refl (fun _ => rfl) (s.plan now.record call)).bind fun planned _ he => ?_
  subst he
  cases planned with
  | error error => exact .ok (.ended rfl error)
  | ok errand =>
    refine (Matched.refl (fun _ => rfl) (s.limiter.reserve errand.endpoint.tier now.limiter)).bind
      fun reserved _ he => ?_
    subst he
    obtain ⟨limiter, admitted⟩ := reserved
    cases admitted with
    | error refusal => exact .ok (.ended (s := { s with limiter }) rfl _)
    | ok reservation =>
      refine (requestOf_withCredentials { s with limiter } c now.signature errand).bind
        fun r₁ r₂ hrequest => ?_
      cases expired with
      | true => exact .ok (.ended (s := { s with limiter }.release reservation) rfl _)
      | false =>
        simp only [Bool.false_eq_true, if_false, trackSubmitted]
        cases errand.submitted with
        | none => exact .ok (.sent rfl ⟨rfl, rfl, rfl, hrequest⟩)
        | some order =>
          simp only [track, withCredentials]
          cases s.tracker.track order with
          | mk tracker tracked =>
            cases tracked with
            | error error =>
              exact .ok (.ended (s := { s with limiter, tracker }.release reservation) rfl error)
            | ok u => exact .ok (.sent rfl ⟨rfl, rfl, rfl, hrequest⟩)

theorem taking_withCredentials (s : Session) (c : Credentials) {α : Type}
    (result : Except GatewayError α)
    {take take' : α → Checked (Session × Except GatewayError Answer)}
    (htake : ∀ a, take' a = disguise c <$> take a) :
    (s.withCredentials c).taking result take' = disguise c <$> s.taking result take := by
  cases result with
  | error error => rfl
  | ok a => exact htake a

theorem takeUpdate_withCredentials (s : Session) (c : Credentials) (u : OrderUpdate) :
    (s.withCredentials c).takeUpdate u = disguise c (s.takeUpdate u) := by
  simp only [takeUpdate, applyUpdate, withCredentials]
  cases s.tracker.apply u with
  | mk tracker result =>
    cases result with
    | error error => rfl
    | ok outcome =>
      simp only
      cases tracker.get? u.clientId <;> rfl

theorem takePlaced_withCredentials (s : Session) (c : Credentials) (now : Timestamp)
    (clientId : String) (sequence : Nat) (reply : OrderReply) :
    (s.withCredentials c).takePlaced now clientId sequence reply =
      disguise c <$> s.takePlaced now clientId sequence reply := by
  rw [takePlaced_eq, takePlaced_eq]
  cases Status.normalize reply.status with
  | error error => rfl
  | ok state =>
    simp only [takeUpdate_withCredentials, map_bind]
    rfl

theorem takeCancelled_withCredentials (s : Session) (c : Credentials) (now : Timestamp)
    (exchangeId : String) (sequence : Nat) (reply : CancelReply) :
    (s.withCredentials c).takeCancelled now exchangeId sequence reply =
      disguise c <$> s.takeCancelled now exchangeId sequence reply := by
  unfold takeCancelled
  cases cancelledState exchangeId reply with
  | error error => rfl
  | ok state =>
    rw [map_bind]
    rfl

theorem takeStatus_withCredentials (s : Session) (c : Credentials) (now : Timestamp)
    (sequence : Nat) (reply : OrderReply) :
    (s.withCredentials c).takeStatus now sequence reply =
      disguise c <$> s.takeStatus now sequence reply := by
  unfold takeStatus
  rw [map_bind]
  refine congrArg (s.serverNow now >>= ·) (funext fun receivedAt => ?_)
  cases Status.normalize reply.status <;> rfl

theorem takeReports_withCredentials (s : Session) (c : Credentials) (receivedAt : Timestamp)
    (sequence : Nat) (entries : List OrderListEntry) :
    (s.withCredentials c).takeReports receivedAt sequence entries =
      disguise c <$> s.takeReports receivedAt sequence entries := by
  induction entries generalizing s with
  | nil => rfl
  | cons e rest ih =>
    unfold takeReports
    cases Status.normalize e.status with
    | error error => rfl
    | ok state =>
      simp only [map_bind]
      refine congrArg (s.reportOf receivedAt sequence state e >>= ·) (funext fun report => ?_)
      have hobserve : (s.withCredentials c).observe report =
          (s.observe report).withCredentials c := rfl
      rw [hobserve, ih, bind_map_left]
      rfl

theorem takeOrderList_withCredentials (s : Session) (c : Credentials) (now : Timestamp)
    (sequence : Nat) (e : Errand) (body : String) :
    (s.withCredentials c).takeOrderList now sequence e body =
      disguise c <$> s.takeOrderList now sequence e body := by
  refine taking_withCredentials s c _ fun entries => ?_
  rw [map_bind]
  refine congrArg (s.serverNow now >>= ·) (funext fun receivedAt => ?_)
  rw [takeReports_withCredentials, bind_map_left, map_bind]
  rfl

/-- What is taken in from a body does not depend on credentials. -/
theorem takeBody_withCredentials (s : Session) (c : Credentials) (now : Timestamp)
    (sequence : Nat) (e : Errand) (body : String) :
    (s.withCredentials c).takeBody now sequence e body =
      disguise c <$> s.takeBody now sequence e body := by
  cases e with
  | syncTime sentAt => exact taking_withCredentials s c _ fun server => rfl
  | exchangeInfo =>
    refine taking_withCredentials s c _ fun info => ?_
    simp only [takeExchangeInfo, withCredentials]
    cases s.symbols.refresh (info.symbols.map SymbolInfo.entry) with
    | mk symbols refreshed => cases refreshed <;> rfl
  | place order symbol =>
    refine taking_withCredentials s c _ fun reply => ?_
    rw [takePlaced_withCredentials, bind_map_left, map_bind]
    rfl
  | cancel exchangeId =>
    refine taking_withCredentials s c _ fun reply => ?_
    rw [takeCancelled_withCredentials, bind_map_left, map_bind]
    rfl
  | status exchangeId =>
    refine taking_withCredentials s c _ fun reply => ?_
    rw [takeStatus_withCredentials, bind_map_left, map_bind]
    rfl
  | openOrders => exact takeOrderList_withCredentials s c now sequence _ body
  | allOrders => exact takeOrderList_withCredentials s c now sequence _ body
  | trades pair symbol =>
    have hsides : ∀ e, (s.withCredentials c).sideOf e = s.sideOf e := fun _ => rfl
    have hfills := funext (fillsOf_congr hsides pair)
    simp only [takeBody, hfills]
    rfl
  | _ => rfl

theorem settle_withCredentials (s : Session) (c : Credentials) (now : Timestamp)
    (r : Reservation) (delivery : Http.Delivery) :
    (s.withCredentials c).settle now r delivery = disguise c (s.settle now r delivery) := by
  cases delivery with
  | timedOut => rfl
  | failed error => cases error <;> rfl
  | reply response => rfl

theorem afterFailure_withCredentials (s : Session) (c : Credentials) (now : Readings)
    (e : Errand) (error : GatewayError) :
    (s.withCredentials c).afterFailure now e error =
      (·.withCredentials c) <$> s.afterFailure now e error := by
  unfold afterFailure
  split
  · split
    · rfl
    · unfold markFailed
      rw [map_bind]
      rfl
  · rfl

/-- Credentials, and the request that was sent, have no part in finishing a call. -/
theorem finish_withCredentials (s : Session) (c : Credentials) (now : Readings) {p₁ p₂ : Pending}
    (hp : p₁.Alike s.authenticator.scheme p₂) (delivery : Http.Delivery) :
    (s.withCredentials c).finish now p₂ delivery = disguise c <$> s.finish now p₁ delivery := by
  unfold finish
  rw [hp.errand, hp.reservation, hp.sequence, settle_withCredentials]
  cases s.settle now.limiter p₁.reservation delivery with
  | mk s₁ settled =>
    cases settled with
    | error error =>
      simp only [disguise]
      rw [afterFailure_withCredentials, bind_map_left, map_bind]
      rfl
    | ok body => exact takeBody_withCredentials s₁ c now.record _ _ body

end Session

/-! ## Courses -/

/-- What comes of both moves is the same, but for what stands in headers of requests that
credentials have a part in. -/
def Reaction.Alike (scheme : SigningScheme) : Reaction → Reaction → Prop
  | .sent p₁, .sent p₂ => p₁.Alike scheme p₂
  | r₁, r₂ => r₁ = r₂

namespace Dialogue

/-- The second session is the first one with other credentials, and the calls on their way are the
same but for their requests. -/
structure Alike (scheme : SigningScheme) (c : Credentials) (d₁ d₂ : Dialogue) : Prop where
  signs : d₁.session.authenticator.scheme = scheme
  session : d₂.session = d₁.session.withCredentials c
  waiting : List.Forall₂ (Pending.Alike scheme) d₁.waiting d₂.waiting

/-- Moves of sessions that differ in their credentials. -/
theorem Alike.matched_of_step {scheme : SigningScheme} {c : Credentials} {d₁ d₂ : Dialogue}
    (h : d₁.Alike scheme c d₂) (move : Move) :
    Matched (fun x y => x.1.Alike scheme c y.1 ∧ x.2.Alike scheme y.2) (d₁.step move)
      (d₂.step move) := by
  obtain ⟨s₁, waiting₁⟩ := d₁
  obtain ⟨s₂, waiting₂⟩ := d₂
  obtain ⟨rfl, rfl, hwaiting⟩ := h
  cases move with
  | start now expired call =>
    refine (Session.start_withCredentials s₁ c now expired call).bind fun x y hstarted => ?_
    cases hstarted with
    | sent signs alike =>
      exact .ok ⟨⟨signs, rfl, List.rel_append hwaiting (.cons alike .nil)⟩, alike⟩
    | ended signs error => exact .ok ⟨⟨signs, rfl, hwaiting⟩, rfl⟩
  | finish number now delivery =>
    simp only [step]
    rcases getElem?_of_forall₂ hwaiting number with ⟨hnone, hnone'⟩ | ⟨p₁, p₂, hp₁, hp₂, hp⟩
    · simp only [hnone, hnone']
      exact .ok ⟨⟨rfl, rfl, hwaiting⟩, rfl⟩
    · simp only [hp₁, hp₂, Session.finish_withCredentials s₁ c now hp delivery]
      cases hfinish : s₁.finish now p₁ delivery with
      | error fault => exact .error fault
      | ok outcome =>
        refine .ok ⟨⟨?_, rfl, eraseIdx_of_forall₂ hwaiting number⟩, rfl⟩
        exact congrArg Authenticator.scheme (Session.settings_of_finish hfinish).2
  | usage tier now =>
    refine (Matched.refl (fun _ => rfl) (s₁.limiter.usage tier now)).bind fun outcome _ he => ?_
    subst he
    exact .ok ⟨⟨rfl, rfl, hwaiting⟩, rfl⟩
  | usages now =>
    refine (Matched.refl (fun _ => rfl) (s₁.limiter.usages now)).bind fun outcome _ he => ?_
    subst he
    exact .ok ⟨⟨rfl, rfl, hwaiting⟩, rfl⟩
  | _ => exact .ok ⟨⟨rfl, rfl, hwaiting⟩, rfl⟩

/-- **Credentials do not interfere.**  Sessions that are opened with the same settings and different
credentials differ in their credentials alone.  And whatever is done with two such sessions, in any
order and with any deliveries, they take the same course: both come to their end or both are stopped
by the same fault; all that is answered is the same; settings, limiter, symbols, rules, orders and
clock are the same all the time; and so are the requests, of operations that are open to everyone in
all parts, and of others in all parts but what stands in the headers of key, secret and token and,
under the signing scheme, of the signature. -/
theorem alike_of_credentials (c : Credentials) :
    (∀ (config : Config) (c₁ : Credentials),
      Matched (fun s₁ s₂ => s₂ = s₁.withCredentials c) (Session.create config c₁)
        (Session.create config c)) ∧
    ∀ (s : Session) (moves : List Move),
      Matched (fun x y => x.1.Alike s.authenticator.scheme c y.1 ∧
          List.Forall₂ (Reaction.Alike s.authenticator.scheme) x.2 y.2)
        ((opening s).run moves) ((opening (s.withCredentials c)).run moves) :=
  ⟨fun config c₁ => Session.matched_create config c₁ c, fun _ moves =>
    matched_of_run (fun _ _ move h => h.matched_of_step move) ⟨rfl, rfl, .nil⟩ moves⟩

end Dialogue

end SpotGateway
