import SpsiMaster.App.Led
import SpsiMaster.App.Seg

/-!
# Heartbeat and button test

`applications/heart.c`: the two threads `heart_callback` and `buttontest_callback`, each as its
step from one blocking call to the next, and the functions they call. The cases of
`switch(info_temp->retry)` that only differ in the attempt number and in what a failure does are
one definition, taken at the values of each case.
-/

namespace Spsi

open Rtos CInt

namespace World

/-! ## Requests and uploads -/

/-- The arguments of a push to the queue of `r`: `Target_ID`, the command and a data byte. -/
def slot (w : World) (command : UInt8) (value : Nat) : Slot :=
  ⟨w.targetId, command, UInt8.ofNat value⟩

/-- A case of `heart_request`. -/
def requestHeart433 (w : World) : World :=
  ((w.onInfo .rf433 fun i => { i with received := false }).onQueue fun q =>
    rf433UrgentEnqueue q (w.slot 0 w.psi.psiStatus)).log (.heartRequest .rf433)

def requestHeart4068 (w : World) : World :=
  ((w.onInfo .rf4068 fun i => { i with received := false }).onQueue fun q =>
    rf4068UrgentEnqueue q (w.slot 0 w.psi.psiStatus)).log (.heartRequest .rf4068)

def heartRequest (w : World) (rfSelect : Nat) : World :=
  let w := w.onHeart fun h => { h with rfNow := rfSelect }
  match rfSelect with
  | 0 => w.requestHeart4068
  | 1 => w.requestHeart433
  | _ => w

/-- A case of `button_request`. -/
def requestButton433 (w : World) : World :=
  ((w.onInfo .rf433 fun i => { i with testreceived := false }).onQueue fun q =>
    rf433Enqueue q (w.slot 1 w.psi.psiStatus)).log (.buttonRequest .rf433)

def requestButton4068 (w : World) : World :=
  ((w.onInfo .rf4068 fun i => { i with testreceived := false }).onQueue fun q =>
    rf4068Enqueue q (w.slot 1 w.psi.psiStatus)).log (.buttonRequest .rf4068)

def buttonRequest (w : World) (rfSelect : Nat) : World :=
  let w := w.onHeart fun h => { h with rfNow := rfSelect }
  match rfSelect with
  | 0 => w.requestButton4068
  | 1 => w.requestButton433
  | _ => w

def psiUpload (w : World) (value : Nat) : World :=
  if (w.info .rf4068).alive ∨ (w.info .rf433).alive then
    w.onQueue fun q => rf4068Enqueue (rf433Enqueue q (w.slot 2 value)) (w.slot 2 value)
  else w

def longUpload (w : World) : World :=
  w.onQueue fun q => rf4068Enqueue (rf433Enqueue q (w.slot 3 w.psi.psiStatus))
    (w.slot 3 w.psi.psiStatus)

/-! ## Radio state -/

def heartTimeStart (w : World) (time : Nat) : World :=
  w.onHeart fun h => { h with heartTimer := (h.heartTimer.setTime time).start }

/-- `info_temp->retry = 0; info_temp->alive = 1; info_temp->startup = 1`. -/
def revive (w : World) (r : Radio) : World :=
  (w.onInfo r fun i => { i with retry := 0, alive := true, startup := true }).log (.revived r)

def radioRefresh (w : World) (r : Radio) : World :=
  (w.revive r).onHeart fun h => { h with rfNow := cNot h.rfNow }

/-- `get_srand_time`; `rand` is what `rand()` returns. -/
def getSrandTime (min max rand : Nat) : Nat :=
  let value := rand % (max * 10) + min * 10
  (if value = 0 then 1 else value) * 100

/-- `if(temp->freq == 433)`. -/
def offlineEvent (r : Radio) : RfEvent :=
  if r.freq = 433 then .offline .rf433 else .offline .rf4068

@[simp] theorem offlineEvent_eq (r : Radio) : offlineEvent r = .offline r := by cases r <;> rfl

def rfOffline (w : World) (r : Radio) : World :=
  if (w.info r).alive then
    (w.onInfo r fun i => { i with alive := false }).post (offlineEvent r)
  else if (w.info r).startup = false then
    (w.onInfo r fun i => { i with startup := true }).post (offlineEvent r)
  else w

def rfWrite (w : World) (rfSelect : Nat) (rssi : Int) : World :=
  if rfSelect ≠ 0 then
    w.fileOutput ⟨1, w.psi.valveStatus, w.psi.psiStatus, 1, (w.info .rf433).retry, rssi, 1, 0⟩
  else
    w.fileOutput ⟨0, w.psi.valveStatus, w.psi.psiStatus, 1, (w.info .rf4068).retry, rssi, 1, 0⟩

/-! ## The heartbeat thread -/

def setMode (w : World) (m : HeartMode) : World := w.onHeart fun h => { h with heartMode := m }

def releaseHeartSem (w : World) : World :=
  w.onHeart fun h => { h with heartSem := semRelease h.heartSem }

def setRetry (w : World) (r : Radio) (n : Nat) : World := w.onInfo r fun i => { i with retry := n }

def retryIncrease (w : World) (r : Radio) : World :=
  w.onInfo r fun i => { i with retry := u8 (i.retry + 1) }

/-- The log record of a heartbeat. -/
def heartRecord (w : World) (r : Radio) (received : Bool) (attempt : Nat) : World :=
  w.fileOutput ⟨w.heart.rfNow, w.psi.valveStatus, w.psi.psiStatus, received.toNat, attempt,
    if received then (w.info r).rssi else 0, 1, 0⟩

/-- After the `rt_thread_mdelay(2000)` of a connection request. -/
def connectCheck (w : World) : World :=
  let w := w.log (.judged .rf433)
  let i := w.info .rf433
  if i.received then
    (((w.fileOutput ⟨1, w.psi.valveStatus, w.psi.psiStatus, i.received.toNat, i.retry, i.rssi,
      0, 0⟩).onHeart fun h => { h with connectTimer := h.connectTimer.stop }).radioRefresh
        .rf433).heartTimeStart 10000 |>.setMode .send
  else w

/-- `case send`. -/
def heartSend (w : World) : World :=
  let w := w.onHeart fun h => { h with heartInfo := Radio.select h.rfNow }
  ((w.heartRequest w.heart.rfNow).heartTimeStart 2000).setMode .check |>.onHeart fun h =>
    { h with rfLock := (h.rfLock.trytake .heart).2 }

/-- A case 0, 1 or 2 of mode `check`. -/
def heartAttempt (attempt : Nat) (fail : World → Radio → World) (w : World) (r : Radio) : World :=
  if (w.info r).received then
    (((w.setMode .send).heartRecord r true attempt).radioRefresh r).heartTimeStart 27700
  else fail w r

def heartFirst : World → Radio → World :=
  heartAttempt 0 fun w r => ((w.setMode .randtime7).retryIncrease r).releaseHeartSem

def heartSecond : World → Radio → World :=
  heartAttempt 1 fun w r => ((w.setMode .randtime7).retryIncrease r).releaseHeartSem

def heartThird : World → Radio → World :=
  heartAttempt 2 fun w r => ((w.setMode .randtime8).retryIncrease r).heartTimeStart 1000

/-- The failing branch of case 3. -/
def heartDeclare (w : World) (r : Radio) : World :=
  let w := (w.aliveCountIncrease w.heart.rfNow).onHeart fun h => { h with rfNow := cNot h.rfNow }
  (((w.rfOffline r).setRetry r 0).releaseHeartSem).log (.verdict r false)

/-- Case 3 of mode `check`. -/
def heartFinal (w : World) (r : Radio) : World :=
  let w := w.heartRecord r (w.info r).received 3
  (if (w.info r).received then
    ((w.radioRefresh r).heartTimeStart 27700).log (.verdict r true)
  else w.heartDeclare r).setMode .send

/-- `case check`; a retry count above 3 has no case. -/
def heartCheck (w : World) : World :=
  let r := w.heart.heartInfo
  let w := w.log (.judged r)
  (match (w.info r).retry with
    | 0 => w.heartFirst r
    | 1 => w.heartSecond r
    | 2 => w.heartThird r
    | 3 => w.heartFinal r
    | _ => w).onHeart fun h => { h with rfLock := h.rfLock.release .heart }

/-- `case randtime_7` and `case randtime_8`. -/
def heartRandtime (w : World) (max rand : Nat) : World :=
  let time := getSrandTime 0 max rand
  ((w.setMode .send).onHeart fun h => { h with randTime := time }).heartTimeStart time

/-- `switch(heart_mode)`. -/
def heartSwitch (w : World) (rand : Nat) : World :=
  match w.heart.heartMode with
  | .send => w.heartSend
  | .check => w.heartCheck
  | .randtime7 => w.heartRandtime 7 rand
  | .randtime8 => w.heartRandtime 8 rand

def heartGoto (w : World) (pc : HeartPc) : World := w.onHeart fun h => { h with heartPc := pc }

/-- `heart_callback`, from one blocking call to the next. -/
def heartCallback (w : World) (rand : Nat) : World :=
  match w.heart.heartPc with
  | .connectTake =>
    match semTake w.heart.connectSem with
    | some v =>
      ((w.onHeart fun h => { h with connectSem := v }).heartRequest 1).heartGoto .connectWait
    | none => w.heartGoto .heartTake
  | .connectWait => w.connectCheck.heartGoto .heartTake
  | .heartTake =>
    match semTake w.heart.heartSem with
    | some v =>
      ((w.onHeart fun h => { h with heartSem := v }).heartSwitch rand).heartGoto .connectTake
    | none => w.heartGoto .connectTake

/-! ## The button thread -/

/-- `if(rt_mutex_trytake(rf_lock)==RT_EOK) { rf_now = !rf_now; rt_mutex_release(rf_lock); }`. -/
def buttonFlip (w : World) : World :=
  match w.heart.rfLock.trytake .button with
  | (true, m) =>
    w.onHeart fun h => { h with rfNow := cNot h.rfNow, rfLock := m.release .button }
  | (false, _) => w

/-- The log record of a button test. -/
def buttonRecord (w : World) (r : Radio) (received : Bool) (attempt : Nat) : World :=
  w.fileOutput ⟨w.heart.rfNow, w.psi.valveStatus, w.psi.psiStatus, received.toNat, attempt,
    if received then (w.info r).rssi else 0, 1, 1⟩

/-- A case 0, 1 or 2, after its delay. -/
def buttonAttempt (attempt : Nat) (w : World) (r : Radio) : World :=
  if (w.info r).testreceived then ((w.buttonRecord r true attempt).revive r).buttonFlip
  else w.retryIncrease r

def buttonFirst : World → Radio → World := buttonAttempt 0
def buttonSecond : World → Radio → World := buttonAttempt 1
def buttonThird : World → Radio → World := buttonAttempt 2

/-- The failing branch of case 3. -/
def buttonDeclare (w : World) (r : Radio) : World :=
  let w := (w.aliveCountIncrease w.heart.rfNow).buttonFlip
  ((w.rfOffline r).setRetry r 0).log (.verdict r false)

/-- Case 3, after its delay. -/
def buttonFinal (w : World) (r : Radio) : World :=
  let w := w.buttonRecord r (w.info r).testreceived 3
  if (w.info r).testreceived then ((w.revive r).buttonFlip).log (.verdict r true)
  else w.buttonDeclare r

/-- The rest of the case `attempt` of the `switch`. -/
def buttonFinish (w : World) (r : Radio) (attempt : Nat) : World :=
  match attempt with
  | 0 => w.buttonFirst r
  | 1 => w.buttonSecond r
  | 2 => w.buttonThird r
  | 3 => w.buttonFinal r
  | _ => w

def buttonGoto (w : World) (pc : ButtonPc) : World := w.onHeart fun h => { h with buttonPc := pc }

/-- The top of the loop, where `info_temp` is chosen. -/
def buttonLoop (w : World) : World := w.buttonGoto (.take (Radio.select w.heart.rfNow))

/-- `buttontest_callback`, from one blocking call to the next. -/
def buttontestCallback (w : World) : World :=
  match w.heart.buttonPc with
  | .start => w.buttonLoop
  | .take r =>
    match semTake w.heart.buttonSem with
    | some v =>
      let w := ((w.onHeart fun h => { h with buttonSem := v }).buttonRequest
        w.heart.rfNow).receiverClose
      if (w.info r).retry ≤ 3 then w.buttonGoto (.wait r (w.info r).retry) else w.buttonLoop
    | none => w.buttonLoop
  | .wait r attempt => (w.buttonFinish r attempt).buttonLoop

/-- `heart_single`. -/
def heartSingle (w : World) : World :=
  w.onHeart fun h => { h with buttonSem := semRelease h.buttonSem }

def heartTimerCallback (w : World) : World := w.releaseHeartSem

def connectTimerCallback (w : World) : World :=
  w.onHeart fun h => { h with connectSem := semRelease h.connectSem }

end World

end Spsi
