import SstpClient.Lib.Machine

/-!
The tunnel provider, `PacketTunnelProvider.m`, with the threads of its sessions.

The main queue runs its blocks in their order. The thread of a session, the blocks of the global
queue, the timers and the handlers of the system go on in between, one step whenever the run says
so. A session is called by the generation it was begun with; a callback carries the session whose
thread raised it, which the provider does not look at.
-/

namespace SstpClient.Provider

open SstpClient.Lib.Machine

/-! ### Errors and stages -/

inductive ErrorCode
  | dnsResolve | tcpTimeout | tlsHandshake | tlsCert | httpUpgrade | sstpControl | authRejected
  | ipcpFailed | cryptoBinding | mppeFailed | networkLost | missingCredentials | cancelled | internal
  deriving DecidableEq

def sstpIosErrorIsFatal (code : ErrorCode) : Bool :=
  code = .authRejected || code = .missingCredentials || code = .tlsCert || code = .cancelled ||
    code = .cryptoBinding

inductive Stage
  | idle | resolving | tcpTls | httpUpgrade | sstpControl | pppLcp | pppAuth | pppIpcp | pppMppe
  | applyingSettings | connected | disconnecting | reconnecting | error
  deriving DecidableEq

structure Failure where
  code : ErrorCode
  stage : Stage
  message : String
  deriving DecidableEq

/-- What the handlers of the system get: an error of `SSTPMakeError`, or one of its own. -/
inductive TunnelError
  | failure (f : Failure)
  | system (description : String)
  deriving DecidableEq

def kSSTPMaxReconnectAttempts : ℕ := 3

/-! ### The state -/

structure Addresses where
  localIp : String
  gateway : String
  dns1 : String
  dns2 : String
  deriving DecidableEq

structure Packet where
  bytes : List UInt8
  proto : ℤ
  deriving DecidableEq

inductive Block
  | stage (stage : Stage)
  | ready (session generation : ℕ) (addresses : Addresses)
  | packet (session : ℕ) (bytes : List UInt8)
  | fail (session generation : ℕ) (failure : Failure)
  | reconnect (generation : ℕ)
  | beginSession (generation : ℕ)
  | stopped
  deriving DecidableEq

/-- The blocks of the global queue: a teardown, before and after it has stopped the session, and the
rest of `stopTunnelWithReason`. -/
inductive Task
  | teardown (nextGen : ℕ)
  | join (nextGen : ℕ)
  | finish
  deriving DecidableEq

/-- Where the thread of a session stands. `starting` and `running` name the session that the thread
found in the provider; `raising` is in a callback that has looked at the generation and has not
dispatched its block yet. -/
inductive Phase
  | absent
  | created
  | starting (session : Option ℕ)
  | returned
  | started
  | running (session : Option ℕ)
  | raising (block : Block) (next : Phase)
  | finished
  deriving DecidableEq

/-- What `sstp_ios_session` keeps about errors. -/
structure Engine where
  stage : Stage
  failCode : Option ErrorCode
  failMsg : String

structure State where
  session : Option ℕ
  packetLoopRunning : Bool
  userStopRequested : Bool
  startCompletionCalled : Bool
  pendingStartHandler : Bool
  sessionGeneration : ℕ
  currentStage : Stage
  lastErrorCode : Option ErrorCode
  lastErrorMessage : Option String
  reconnectAttempt : ℕ
  reconnectScheduled : Bool
  active : Bool
  engine : ℕ → Engine
  worker : ℕ → Phase
  main : List Block
  timers : List ℕ
  global : List Task
  /-- The handlers of `setTunnelNetworkSettings`, by their generations. -/
  applying : List ℕ
  /-- The handlers of `readPacketsWithCompletionHandler`. -/
  reads : ℕ

def init : State where
  session := none
  packetLoopRunning := false
  userStopRequested := false
  startCompletionCalled := false
  pendingStartHandler := false
  sessionGeneration := 0
  currentStage := .idle
  lastErrorCode := none
  lastErrorMessage := none
  reconnectAttempt := 0
  reconnectScheduled := false
  active := false
  engine := fun _ => ⟨.idle, none, ""⟩
  worker := fun _ => .absent
  main := []
  timers := []
  global := []
  applying := []
  reads := 0

inductive Event
  /-- A failure block has been run. -/
  | delivered (session : ℕ) (failure : Failure)
  /-- `dispatch_after` has been called for a failure of the session. -/
  | scheduled (session : ℕ) (delay : ℕ)
  | cancelled (error : TunnelError)
  | retried
  | readied
  | completed (error : Option TunnelError)
  | applySettings (addresses : Addresses)
  | wrotePackets (bytes : List UInt8)
  | readPackets
  | writeIp (session : ℕ) (bytes : List UInt8)
  | stopCompleted
  deriving DecidableEq

/-! ### The provider -/

def completeStartWithError (s : State) (error : Option TunnelError) : State × List Event :=
  if s.startCompletionCalled then (s, [])
  else ({ s with startCompletionCalled := true, pendingStartHandler := false },
    if s.pendingStartHandler then [.completed error] else [])

/-- `sstp_ios_session_stop`, as far as it is seen here. -/
def sessionStop (s : State) : State :=
  match s.session with
  | none => s
  | some t =>
    { s with engine := Function.update s.engine t { s.engine t with stage := .disconnecting } }

def beginSession (s : State) (generation : ℕ) : State :=
  if s.userStopRequested || s.sessionGeneration != generation then s
  else
    let s := sessionStop s
    { s with
      session := some generation
      currentStage := .resolving
      engine := Function.update s.engine generation ⟨.idle, none, ""⟩
      worker := Function.update s.worker generation .created }

/-- The delays before the first, second and third attempt, in seconds. -/
def delays : List ℕ := [1, 2, 5]

def handleSessionFailure (s : State) (session : ℕ) (failure : Failure) (generation : ℕ) :
    State × List Event :=
  if s.sessionGeneration != generation || s.userStopRequested then (s, [])
  else
    let s := { s with
      lastErrorCode := some failure.code
      lastErrorMessage := some failure.message
      currentStage := failure.stage }
    let canReconnect := !sstpIosErrorIsFatal failure.code &&
      decide (s.reconnectAttempt < kSSTPMaxReconnectAttempts) && !s.reconnectScheduled
    if canReconnect then
      ({ s with
          reconnectAttempt := s.reconnectAttempt + 1
          reconnectScheduled := true
          currentStage := .reconnecting
          timers := s.timers ++ [generation] },
        [.scheduled session (delays.getD (min (s.reconnectAttempt + 1) 3 - 1) 0)])
    else
      let r := completeStartWithError s (some (.failure failure))
      (r.1, r.2 ++ [.cancelled (.failure failure)])

/-- The first part of `teardownWorkerKeepingCredentials`, up to the wait for the thread. -/
def teardownWorkerKeepingCredentials (s : State) : State :=
  { sessionStop s with packetLoopRunning := false, session := none }

def readPackets (s : State) : State × List Event :=
  if s.packetLoopRunning then ({ s with reads := s.reads + 1 }, [.readPackets]) else (s, [])

def startPacketLoop (s : State) : State × List Event :=
  if s.packetLoopRunning then (s, []) else readPackets { s with packetLoopRunning := true }

/-- The handler of `readPacketsWithCompletionHandler`; 2 and 30 are `AF_INET` and `AF_INET6`. -/
def packetsRead (s : State) (packets : List Packet) : State × List Event :=
  match s.packetLoopRunning, s.session with
  | true, some t =>
    let r := readPackets s
    (r.1, (packets.filter fun p => p.proto = 2 || p.proto = 30).map (fun p => .writeIp t p.bytes) ++ r.2)
  | _, _ => (s, [])

/-- The handler of `setTunnelNetworkSettings`. -/
def settingsApplied (s : State) (generation : ℕ) (error : Option String) : State × List Event :=
  if s.sessionGeneration != generation then (s, [])
  else
    match error with
    | some description =>
      let r := completeStartWithError
        { s with
          lastErrorCode := some .internal
          lastErrorMessage := some description
          currentStage := .error } (some (.system description))
      (r.1, r.2 ++ [.cancelled (.system description)])
    | none =>
      let r := completeStartWithError
        { s with currentStage := .connected, lastErrorCode := none, lastErrorMessage := none } none
      let q := startPacketLoop r.1
      (q.1, r.2 ++ q.2)

/-- `startTunnelWithOptions`; `credentials` tells whether server, user and password are there. -/
def startTunnel (s : State) (credentials : Bool) : State × List Event :=
  let s := { s with
    pendingStartHandler := true
    startCompletionCalled := false
    userStopRequested := false
    reconnectAttempt := 0
    reconnectScheduled := false
    currentStage := .idle
    lastErrorCode := none
    lastErrorMessage := none }
  if credentials then
    (beginSession { s with sessionGeneration := s.sessionGeneration + 1, active := true }
      (s.sessionGeneration + 1), [])
  else
    let message := "Не заданы сервер, логин или пароль"
    completeStartWithError
      { s with
        lastErrorCode := some .missingCredentials
        lastErrorMessage := some message
        currentStage := .error } (some (.failure ⟨.missingCredentials, .error, message⟩))

/-- `stopTunnelWithReason`, up to the wait for the thread. -/
def stopTunnel (s : State) (userInitiated : Bool) : State :=
  let s := { s with
    userStopRequested := true
    reconnectScheduled := false
    packetLoopRunning := false
    currentStage := .disconnecting
    lastErrorCode := if userInitiated then some .cancelled else s.lastErrorCode
    lastErrorMessage := if userInitiated then some "Отключено пользователем" else s.lastErrorMessage
    sessionGeneration := s.sessionGeneration + 1
    active := false }
  { sessionStop s with session := none, global := s.global ++ [.finish] }

/-- The blocks that callbacks, timers and the global queue put on the main queue. -/
def runBlock (s : State) : Block → State × List Event
  | .stage stage => ({ s with currentStage := stage }, [])
  | .ready _ generation addresses =>
    if s.sessionGeneration != generation || s.userStopRequested then (s, [])
    else ({ s with
        reconnectAttempt := 0
        currentStage := .applyingSettings
        applying := s.applying ++ [generation] }, [.readied, .applySettings addresses])
  | .packet _ bytes =>
    (s, if s.packetLoopRunning && s.session.isSome then [.wrotePackets bytes] else [])
  | .fail session generation failure =>
    let r := if s.sessionGeneration != generation then (s, [])
      else handleSessionFailure s session failure generation
    (r.1, .delivered session failure :: r.2)
  | .reconnect generation =>
    let s := { s with reconnectScheduled := false }
    if s.userStopRequested || s.sessionGeneration != generation then (s, [])
    else ({ s with
        sessionGeneration := s.sessionGeneration + 1
        global := s.global ++ [.teardown (s.sessionGeneration + 1)] }, [.retried])
  | .beginSession generation =>
    (if s.userStopRequested then s else beginSession s generation, [])
  | .stopped => ({ s with currentStage := .idle }, [.stopCompleted])

/-! ### The thread of a session -/

/-- What the thread does next, where that is not settled by its phase. -/
inductive Action
  | go
  | stage (stage : Stage)
  | ready (addresses : Addresses)
  | packet (bytes : List UInt8)
  | fail (failure : Failure)
  /-- `sstp_ios_session_start_ex` returns, with zero or not; or the event loop ends. -/
  | finish (zero : Bool)

def setPhase (s : State) (w : ℕ) (phase : Phase) : State :=
  { s with worker := Function.update s.worker w phase }

@[simp] lemma setPhase_worker_self (s : State) (w : ℕ) (phase : Phase) :
    (setPhase s w phase).worker w = phase := by simp [setPhase]

lemma setPhase_worker_of_ne (s : State) {v w : ℕ} (phase : Phase) (h : v ≠ w) :
    (setPhase s w phase).worker v = s.worker v := by simp [setPhase, h]

def setStage (s : State) (w t : ℕ) (stage : Stage) (next : Phase) : State :=
  setPhase { s with engine := Function.update s.engine t { s.engine t with stage := stage } } w
    (.raising (.stage stage) next)

def sstpIosFailEx (s : State) (w t : ℕ) (failure : Failure) (next : Phase) : State :=
  setPhase { s with
      engine := Function.update s.engine t ⟨failure.stage, some failure.code, failure.message⟩ } w
    (.raising (.fail w s.sessionGeneration failure) next)

/-- The beginning of `sstp_ios_session_start_ex`. -/
def startEx (s : State) (w : ℕ) : State :=
  setPhase
    (match s.session with
      | none => s
      | some t => { s with
          engine := Function.update s.engine t { s.engine t with failCode := none, failMsg := "" } })
    w (.starting s.session)

/-- What the thread reports after a start that has failed. -/
def lastError (s : State) : Failure :=
  let message := "Не удалось запустить SSTP-сессию"
  match s.session with
  | none => ⟨.internal, .idle, message⟩
  | some t =>
    ⟨(s.engine t).failCode.getD .internal, (s.engine t).stage,
      if (s.engine t).failMsg = "" then message else (s.engine t).failMsg⟩

def workerStep (s : State) (w : ℕ) (a : Action) : State :=
  match s.worker w, a with
  | .created, .go => startEx s w
  | .starting none, .go => setPhase s w .returned
  | .starting (some t), .stage stage => setStage s w t stage (.starting (some t))
  | .starting (some t), .fail failure => sstpIosFailEx s w t failure .returned
  | .starting (some _), .finish zero => setPhase s w (if zero then .started else .returned)
  | .returned, .go =>
    setPhase s w (.raising (.fail w s.sessionGeneration (lastError s)) .finished)
  | .started, .go => setPhase s w (.running s.session)
  | .running none, .go => setPhase s w .finished
  | .running (some t), .stage stage => setStage s w t stage (.running (some t))
  | .running (some t), .ready addresses =>
    setPhase s w (.raising (.ready w s.sessionGeneration addresses) (.running (some t)))
  | .running (some t), .packet bytes =>
    if bytes = [] then s
    else setPhase s w (.raising (.packet w bytes) (.running (some t)))
  | .running (some t), .fail failure => sstpIosFailEx s w t failure .finished
  | .running (some _), .finish _ => setPhase s w .finished
  | .raising block next, .go => { setPhase s w next with main := s.main ++ [block] }
  | _, _ => s

/-! ### The whole -/

inductive Input
  | startTunnel (credentials : Bool)
  | stopTunnel (userInitiated : Bool)
  | worker (session : ℕ) (action : Action)
  | main
  | fire (k : ℕ)
  | task (k : ℕ)
  | settings (k : ℕ) (error : Option String)
  | packets (packets : List Packet)

/-- A block of the global queue goes on: to its wait, or from there to the main queue. -/
def runTask (s : State) (k : ℕ) : State :=
  match s.global[k]? with
  | none => s
  | some (.teardown nextGen) =>
    { teardownWorkerKeepingCredentials s with global := s.global.set k (.join nextGen) }
  | some (.join nextGen) =>
    { s with global := s.global.eraseIdx k, main := s.main ++ [.beginSession nextGen] }
  | some .finish => { s with global := s.global.eraseIdx k, main := s.main ++ [.stopped] }

def step (s : State) : Input → State × List Event
  | .startTunnel credentials => if s.active then (s, []) else startTunnel s credentials
  | .stopTunnel userInitiated => (stopTunnel s userInitiated, [])
  | .worker w a => (workerStep s w a, [])
  | .main =>
    match s.main with
    | [] => (s, [])
    | block :: rest => runBlock { s with main := rest } block
  | .fire k =>
    match s.timers[k]? with
    | none => (s, [])
    | some generation =>
      ({ s with timers := s.timers.eraseIdx k, main := s.main ++ [.reconnect generation] }, [])
  | .task k => (runTask s k, [])
  | .settings k error =>
    match s.applying[k]? with
    | none => (s, [])
    | some generation =>
      settingsApplied { s with applying := s.applying.eraseIdx k } generation error
  | .packets packets =>
    if s.reads = 0 then (s, []) else packetsRead { s with reads := s.reads - 1 } packets

end SstpClient.Provider
