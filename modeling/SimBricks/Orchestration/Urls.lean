import SimBricks.Orchestration.Channels
import SimBricks.Parser.Parameters

/-!
# From the orchestration to the simulators

The URLs that `get_parameters_url` writes and `SimbricksParametersParse`
reads.
-/

set_option autoImplicit false

namespace SimBricks.Orchestration
open Library.Text SimBricks.Parser UInt64

/-- A path that can stand in a URL and in a C string. -/
structure PathOk (path : Bytes) : Prop where
  nonempty : path ≠ []
  colon : kColon ∉ path
  nul : 0 ∉ path

lemma decimal_nul (n : ℕ) : 0 ∉ decimal n := by
  intro h
  exact absurd (decimal_isDigit h) (by decide)

section
variable {socket : Socket} {shmPath : Bytes} {sync : Bool} {latency syncPeriod : ℕ}

lemma urlText_connect (h : socket.type = .connect) :
    urlText socket shmPath sync latency syncPeriod =
      ascii "connect"++kColon::(socket.path++fieldsText sync latency syncPeriod) := by
  simp [urlText, h, fieldsText, ascii, kColon, kEquals, signed_natCast]

lemma urlText_listen (h : socket.type = .listen) :
    urlText socket shmPath sync latency syncPeriod =
      ascii "listen"++kColon::(socket.path++kColon::(shmPath++
        fieldsText sync latency syncPeriod)) := by
  simp [urlText, h, fieldsText, ascii, kColon, kEquals, signed_natCast]

lemma fieldsText_nul : 0 ∉ fieldsText sync latency syncPeriod := by
  have hsync : 0 ∉ ascii "sync" := by decide
  have hmode : 0 ∉ ascii (if sync then "true" else "false") := by cases sync <;> decide
  have hlatency : 0 ∉ ascii "latency" := by decide
  have hinterval : 0 ∉ ascii "sync_interval" := by decide
  simp [fieldsText, decimal_nul, hsync, hmode, hlatency, hinterval, kColon, kEquals]

lemma urlText_nul (hpath : 0 ∉ socket.path) (hshm : socket.type = .listen → 0 ∉ shmPath) :
    0 ∉ urlText socket shmPath sync latency syncPeriod := by
  have hlisten : 0 ∉ ascii "listen" := by decide
  have hconnect : 0 ∉ ascii "connect" := by decide
  cases hty : socket.type with
  | listen =>
    rw [urlText_listen hty]
    simp [hlisten, hpath, hshm hty, fieldsText_nul, kColon]
  | connect =>
    rw [urlText_connect hty]
    simp [hconnect, hpath, fieldsText_nul, kColon]

end

/-- What was written is read back, also where a path looks like other fields. -/
theorem parameters_url_round_trip (w : World) (raw : UInt64 × UInt64) (shmPath : Bytes)
    (socket : Socket) (sync : Bool) (latency syncPeriod : ℕ) (hpath : PathOk socket.path)
    (hshm : socket.type = .listen → PathOk shmPath) (hl : latency < 2^64)
    (hp : syncPeriod < 2^64) :
    ∃ url, w.getParametersUrl shmPath socket none (some sync) (some latency) (some syncPeriod) =
        .ok url ∧
      parametersParse raw (cString url) = .ok
        ⟨socket.type = .listen,socket.path,if socket.type = .listen then some shmPath else none,
          sync,true,ofNat latency,true,ofNat syncPeriod⟩ := by
  refine ⟨_,rfl,?_⟩
  rw [cString_eq_self (urlText_nul hpath.nul fun hty => (hshm hty).nul)]
  cases hty : socket.type with
  | listen =>
    exact parametersParse_listen raw hpath.nonempty hpath.colon hl hp (hshm hty).nonempty
      (hshm hty).colon (urlText_listen hty)
  | connect =>
    exact parametersParse_connect raw hpath.nonempty hpath.colon hl hp (urlText_connect hty)

/-- A socket path with an equals sign and the text of another field. -/
theorem parameters_url_round_trip_odd :
    ∃ url, World.initial.getParametersUrl (ascii "shm") ⟨.listen,ascii "sync=true/latency=7"⟩ none
        (some false) (some ((2^64-1 : ℕ) : ℤ)) (some ((0 : ℕ) : ℤ)) = .ok url ∧
      parametersParse (1,2) (cString url) = .ok
        ⟨true,ascii "sync=true/latency=7",some (ascii "shm"),false,true,ofNat (2^64-1),
          true,ofNat 0⟩ :=
  parameters_url_round_trip World.initial (1,2) (ascii "shm") ⟨.listen,ascii "sync=true/latency=7"⟩
    false (2^64-1) 0 ⟨by decide,by decide,by decide⟩ (fun _ => ⟨by decide,by decide,by decide⟩)
    (by decide) (by decide)

end SimBricks.Orchestration
