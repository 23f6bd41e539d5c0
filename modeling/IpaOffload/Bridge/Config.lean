import IpaOffload.Bridge.Process

/-!
# Configuration

The bridge reads its settings once, from `/proc/self/environ`. The scanner of
the environment block and the matcher of comma-separated lists are loops over
byte positions; each takes as fuel a number of rounds it cannot exceed,
because every round moves the position forward.
-/

namespace IpaOffload.Bridge

open ByteMem StateFrame

-- ---------------------------------------------------------------------------
-- The environment block
-- ---------------------------------------------------------------------------

/-- `while (pos < env_len && env_buf[pos]) pos++`. -/
def entryEnd (buf : Bytes) : (fuel pos : Nat) → Nat
  | 0, pos => pos
  | fuel + 1, pos =>
    if pos < buf.length ∧ buf.getD pos 0 ≠ 0 then entryEnd buf fuel (pos + 1) else pos

/-- The outer loop of `env_get`, from the entry that begins at `start`: the
value of the first entry called `name`, cut to `outSz - 1` bytes. -/
def envScan (buf name : Bytes) (outSz : Nat) : (fuel start : Nat) → Option Bytes
  | 0, _ => none
  | fuel + 1, start =>
    if start < buf.length then
      let pos := entryEnd buf buf.length start
      let v := start + name.length + 1
      if start + name.length < pos ∧ buf.getD (start + name.length) 0 = 61 ∧
          (buf.drop start).take name.length = name then
        some (((buf.drop v).take (pos - v)).take (outSz - 1))
      else envScan buf name outSz fuel (pos + 1)
    else none

section
variable {σ : Type} (P : Platform σ)

def loadEnv : Proc σ Unit := do
  let w ← get
  if w.envLoaded then
    pure ()
  else
    let fd ← sysOpen P (cstr "/proc/self/environ") 0 0
    if 0 ≤ fd then
      let data ← sysRead P fd (maxEnvBuf - 1)
      sysClose P fd
      modify fun w => { w with envBuf := data.getD [], envLoaded := true }
    else
      modify fun w => { w with envLoaded := true }

def envGet (name : Bytes) (outSz : Nat) : Proc σ (Option Bytes) := do
  loadEnv P
  let w ← get
  return envScan w.envBuf (name.take 128) outSz (w.envBuf.length + 1) 0

def parseBoolEnv (name : String) (default : Bool) : Proc σ Bool := do
  match ← envGet P (cstr name) 16 with
  | none => return default
  | some v =>
    if v = cstr "1" ∨ v = cstr "yes" ∨ v = cstr "true" ∨ v = cstr "on" then return true
    else if v = cstr "0" ∨ v = cstr "no" ∨ v = cstr "false" ∨ v = cstr "off" then return false
    else return default

def copyCstr (max : Nat) (src : Bytes) : Bytes := (cText src).take (max - 1)

def readCfg : Proc σ BridgeCfg := do
  let tx ← parseBoolEnv P "IPA_ABI_BRIDGE_TX" true
  let rx ← parseBoolEnv P "IPA_ABI_BRIDGE_RX" true
  let ext ← parseBoolEnv P "IPA_ABI_BRIDGE_EXT" true
  let rtFltLog ← parseBoolEnv P "IPA_ABI_BRIDGE_RT_FLT_LOG" true
  let rtFltTranslate ← parseBoolEnv P "IPA_ABI_BRIDGE_RT_FLT_TRANSLATE" false
  let failClosed ← parseBoolEnv P "IPA_ABI_BRIDGE_FAIL_CLOSED" true
  let hexdumpOnce ← parseBoolEnv P "IPA_ABI_BRIDGE_HEXDUMP_ONCE" true
  let mode ← envGet P (cstr "IPA_ABI_BRIDGE_MODE") maxCfgStr
  let allow ← envGet P (cstr "IPA_ABI_BRIDGE_ALLOW_IFACES") maxCfgStr
  let translate ← envGet P (cstr "IPA_ABI_BRIDGE_TRANSLATE_IFACES") maxCfgStr
  let log ← envGet P (cstr "IPA_ABI_BRIDGE_LOG") maxCfgStr
  return {
    loaded := true
    modeTranslate := mode = some (cstr "translate")
    tx := tx, rx := rx, ext := ext
    rtFltLog := rtFltLog, rtFltTranslate := rtFltTranslate
    failClosed := failClosed, hexdumpOnce := hexdumpOnce
    allow := copyCstr maxCfgStr (allow.getD (cstr "eth0"))
    translate := copyCstr maxCfgStr (translate.getD (cstr ""))
    logPath := copyCstr maxLogPath (log.getD (cstr "/usrdata/ipacm_abi_bridge_v5.log")) }

def loadCfg : Proc σ Unit := do
  let w ← get
  if w.cfg.loaded then
    pure ()
  else
    let cfg ← readCfg P
    modify fun w => { w with cfg := cfg }

end

-- ---------------------------------------------------------------------------
-- Interface lists
-- ---------------------------------------------------------------------------

/-- `while (csv[pos] == ' ' || csv[pos] == ',') pos++`. -/
def skipSep (csv : Bytes) : (fuel pos : Nat) → Nat
  | 0, pos => pos
  | fuel + 1, pos =>
    if csv.getD pos 0 = 32 ∨ csv.getD pos 0 = 44 then skipSep csv fuel (pos + 1) else pos

/-- `while (csv[pos] && csv[pos] != ',') pos++`. -/
def tokenEnd (csv : Bytes) : (fuel pos : Nat) → Nat
  | 0, pos => pos
  | fuel + 1, pos =>
    if csv.getD pos 0 ≠ 0 ∧ csv.getD pos 0 ≠ 44 then tokenEnd csv fuel (pos + 1) else pos

/-- `while (len > 0 && csv[start + len - 1] == ' ') len--`. -/
def trimLen (csv : Bytes) (start : Nat) : (len : Nat) → Nat
  | 0 => 0
  | len + 1 => if csv.getD (start + len) 0 = 32 then trimLen csv start len else len + 1

def csvScan (csv name : Bytes) : (fuel pos : Nat) → Bool
  | 0, _ => false
  | fuel + 1, pos =>
    if csv.getD pos 0 = 0 then false
    else
      let start := skipSep csv csv.length pos
      let stop := tokenEnd csv csv.length start
      let len := trimLen csv start (stop - start)
      if len = name.length ∧ (csv.drop start).take len = name then true
      else csvScan csv name fuel stop

def csvHas (csv name : Bytes) : Bool :=
  if csv.getD 0 0 = 0 then false
  else if csv.getD 0 0 = 42 ∧ csv.getD 1 0 = 0 then true
  else csvScan csv name (csv.length + 1) 0

def BridgeCfg.ifaceAllowed (c : BridgeCfg) (name : Bytes) : Bool := csvHas c.allow name

def BridgeCfg.ifaceTranslateAllowed (c : BridgeCfg) (name : Bytes) : Bool :=
  c.modeTranslate && csvHas c.translate name

-- ---------------------------------------------------------------------------
-- What loading the configuration leaves alone
-- ---------------------------------------------------------------------------

section
variable {σ : Type} {P : Platform σ}

theorem loadEnv_quiet : Preserves World.quiet (loadEnv P) := by
  refine (Preserves.get _).bind fun w => Preserves.ite _ (Preserves.pure _ _) ?_
  refine (sysOpen_quiet _ _ _).bind fun fd => Preserves.ite _ ?_ (Preserves.modify fun _ => rfl)
  exact (sysRead_quiet _ _).bind fun _ => (sysClose_quiet _).bind fun _ => Preserves.modify fun _ => rfl

theorem envGet_quiet (name : Bytes) (outSz : Nat) : Preserves World.quiet (envGet P name outSz) :=
  loadEnv_quiet.bind fun _ => (Preserves.get _).bind fun _ => Preserves.pure _ _

theorem parseBoolEnv_quiet (name : String) (default : Bool) :
    Preserves World.quiet (parseBoolEnv P name default) := by
  refine (envGet_quiet _ _).bind fun v => ?_
  cases v with
  | none => exact Preserves.pure _ _
  | some v =>
    exact Preserves.ite _ (Preserves.pure _ _)
      (Preserves.ite _ (Preserves.pure _ _) (Preserves.pure _ _))

theorem readCfg_quiet : Preserves World.quiet (readCfg P) := by
  have hb (name : String) (default : Bool) := parseBoolEnv_quiet (P := P) name default
  have he (name : Bytes) (outSz : Nat) := envGet_quiet (P := P) name outSz
  refine (hb _ _).bind fun _ => (hb _ _).bind fun _ => (hb _ _).bind fun _ => ?_
  refine (hb _ _).bind fun _ => (hb _ _).bind fun _ => (hb _ _).bind fun _ => (hb _ _).bind fun _ => ?_
  exact (he _ _).bind fun _ => (he _ _).bind fun _ => (he _ _).bind fun _ => (he _ _).bind fun _ =>
    Preserves.pure _ _

theorem readCfg_loaded : Yields (fun c : BridgeCfg => c.loaded = true) (readCfg P) := by
  refine Yields.bind fun _ => Yields.bind fun _ => Yields.bind fun _ => Yields.bind fun _ => ?_
  refine Yields.bind fun _ => Yields.bind fun _ => Yields.bind fun _ => Yields.bind fun _ => ?_
  exact Yields.bind fun _ => Yields.bind fun _ => Yields.bind fun _ => Yields.pure rfl

theorem loadCfg_of_loaded {w : World σ} (h : w.cfg.loaded = true) : (loadCfg P).run w = ((), w) := by
  unfold loadCfg
  rw [run_get_bind, if_pos h]
  rfl

theorem loadCfg_loaded (w : World σ) : ((loadCfg P).run w).2.cfg.loaded = true := by
  unfold loadCfg
  rw [run_get_bind]
  by_cases hl : w.cfg.loaded = true
  · rw [if_pos hl]
    exact hl
  · rw [if_neg hl, run_bind, run_modify]
    dsimp only
    exact readCfg_loaded w

-- ---------------------------------------------------------------------------
-- The configuration does not depend on memory
-- ---------------------------------------------------------------------------

theorem loadEnv_ignores : Ignores World.withMem (loadEnv P) := by
  refine Ignores.get_bind (fun w => Ignores.ite _ (Ignores.pure _ _) ?_) fun _ _ => rfl
  refine Ignores.bind (fun _ _ => rfl) fun fd => Ignores.ite _ ?_ (Ignores.modify fun _ _ => rfl)
  exact Ignores.bind (fun _ _ => rfl) fun _ => Ignores.bind (fun _ _ => rfl) fun _ =>
    Ignores.modify fun _ _ => rfl

theorem envGet_ignores (name : Bytes) (outSz : Nat) : Ignores World.withMem (envGet P name outSz) :=
  loadEnv_ignores.bind fun _ => Ignores.get_bind (fun _ => Ignores.pure _ _) fun _ _ => rfl

theorem parseBoolEnv_ignores (name : String) (default : Bool) :
    Ignores World.withMem (parseBoolEnv P name default) := by
  refine (envGet_ignores _ _).bind fun v => ?_
  cases v with
  | none => exact Ignores.pure _ _
  | some v =>
    exact Ignores.ite _ (Ignores.pure _ _) (Ignores.ite _ (Ignores.pure _ _) (Ignores.pure _ _))

theorem readCfg_ignores : Ignores World.withMem (readCfg P) := by
  have hb (name : String) (default : Bool) := parseBoolEnv_ignores (P := P) name default
  have he (name : Bytes) (outSz : Nat) := envGet_ignores (P := P) name outSz
  refine (hb _ _).bind fun _ => (hb _ _).bind fun _ => (hb _ _).bind fun _ => ?_
  refine (hb _ _).bind fun _ => (hb _ _).bind fun _ => (hb _ _).bind fun _ => (hb _ _).bind fun _ => ?_
  exact (he _ _).bind fun _ => (he _ _).bind fun _ => (he _ _).bind fun _ => (he _ _).bind fun _ =>
    Ignores.pure _ _

theorem loadCfg_ignores : Ignores World.withMem (loadCfg P) := by
  refine Ignores.get_bind (fun w => Ignores.ite _ (Ignores.pure _ _) ?_) fun _ _ => rfl
  exact readCfg_ignores.bind fun _ => Ignores.modify fun _ _ => rfl

end

end IpaOffload.Bridge
