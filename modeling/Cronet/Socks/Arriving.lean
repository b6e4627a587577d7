import Cronet.Request.Proxying
import Cronet.Socks.Dialogue

namespace Cronet.Socks.Tcp

open Cronet.Native (Bytes)
open Cronet.Url (Str Python)
open Cronet.Request (utf8 utf8_eq_nil ProxyServer ProxyParser Foldable withProxyCredentials withProxyCredentials_text
  singleParser singleParser_documented namedProxy_foldable)
open Cronet.Socks.Server (Config decode)

theorem decode_utf8 (s : Str) : decode (utf8 s) = some (String.ofList s) := by
  have encoded : (utf8 s).toByteArray = s.utf8Encode := rfl
  have valid : s.utf8Encode.IsValidUTF8 := ⟨s, rfl⟩
  simp only [decode, String.fromUTF8?, encoded, valid]
  rfl

/-- The credentials that `CreateProxyParams` passes on; SOCKS4 has no use for any. -/
def socksCredentials {Host : Type} (server : ProxyServer Host) : Str × Str :=
  if server.scheme = .socks5 then (server.username, server.password) else ([], [])

namespace Dialogue

/-- The dialogue of a connection to `host` with a SOCKS5 proxy. -/
def through {Host : Type} (server : ProxyServer Host) (host : Bytes) : Dialogue :=
  initial host (utf8 (socksCredentials server).1) (utf8 (socksCredentials server).2)

/-- What the guards of `DoGreetWrite` let through. -/
def Sendable (host : Bytes) (username password : Str) : Prop :=
  host.length ≤ 255 ∧ (utf8 username).length ≤ kMaxCredentialLength ∧ (utf8 password).length ≤ kMaxCredentialLength

/-- The proxy sees the credentials as they were given, and lets the client on exactly where they are the ones it wants. -/
structure Arrives (cfg : Config) (host : Bytes) (username password : Str) (d : Dialogue) : Prop where
  noted : d.server.credentialsSeen = [] ∨
    d.server.credentialsSeen = [(String.ofList username, String.ofList password)]
  sees : d.Concluded → cfg.username ≠ "" → Sendable host username password →
    d.server.credentialsSeen = [(String.ofList username, String.ofList password)]
  agrees : d.Concluded → (d.client.socket.nextState = .handshakeWrite ↔
    (cfg.username = "" ∨ cfg = ⟨String.ofList username, String.ofList password⟩) ∧ Sendable host username password)

theorem accepts_utf8 {cfg : Config} {host : Bytes} {username password : Str} :
    Accepts cfg (Connection.initial host (utf8 username) (utf8 password)).socket ↔
      cfg.username = "" ∨ cfg = ⟨String.ofList username, String.ofList password⟩ := by
  have given : Accepts cfg (Connection.initial host (utf8 username) (utf8 password)).socket ↔
      cfg.username = "" ∨ decode (utf8 username) = some cfg.username ∧ decode (utf8 password) = some cfg.password := Iff.rfl
  rw [given, decode_utf8, decode_utf8, Option.some.injEq, Option.some.injEq]
  apply or_congr Iff.rfl
  cases cfg
  rw [Config.mk.injEq]
  exact and_congr eq_comm eq_comm

theorem Sound.arrives {upstream : Upstream} {cfg : Config} {host : Bytes} {username password : Str} {d : Dialogue}
    (sound : Sound upstream cfg (Connection.initial host (utf8 username) (utf8 password)).socket d) (given : username ≠ []) :
    Arrives cfg host username password d where
  noted := by
    rcases sound.noted with none | ⟨name, secret, named, secretly, seen⟩
    · exact .inl none
    · have decoded : decode (utf8 username) = some name := named
      have decoded' : decode (utf8 password) = some secret := secretly
      rw [decode_utf8, Option.some.injEq] at decoded decoded'
      rw [seen, decoded, decoded']
      exact .inr rfl
  sees concluded asks sendable := by
    have held : (Connection.initial host (utf8 username) (utf8 password)).socket.hasCredentials = true :=
      (hasCredentials_iff _).mpr fun empty => given (utf8_eq_nil.mp empty)
    exact sound.sees _ _ concluded.1 asks sendable held (decode_utf8 username) (decode_utf8 password)
  agrees concluded := (sound.agrees concluded).trans (and_congr accepts_utf8 Iff.rfl)

/-- Credentials given beside the rules of a session reach the proxy that the rules name. -/
def CredentialsArrive [Python] {Host : Type} (p : ProxyParser Host) (upstream : Upstream) (rules username password : Str) :
    Prop :=
  ∃ folded server, withProxyCredentials rules username password = .ok folded ∧ p.singleProxy folded = some server ∧
    server.scheme = .socks5 ∧
    ∀ (cfg : Config) (host : Bytes) (labels : List DialogueLabel) (d : Dialogue),
      (machine upstream cfg).run (through server host) labels = some d →
        labels.length ≤ steps host (utf8 username) (utf8 password) ∧
        (¬d.Concluded → ∃ label e, step upstream cfg d label = some e) ∧ Arrives cfg host username password d

/-- From the options of a session through the rules and their parser to the proxy: what is escaped on the way is what
    was given, whatever it is written in. -/
theorem credentials_arrive [Python] {Host : Type} {p : ProxyParser Host} {upstream : Upstream} {rules username : Str}
    (documented : p.Documented) (alike : upstream.Alike) (foldable : Foldable p rules) (given : username ≠ [])
    (password : Str) : CredentialsArrive p upstream rules username password := by
  rcases foldable with ⟨u, rfl, lower, accepted, ⟨readable, ported⟩, keeps⟩
  have read := (documented.reads_iff accepted username password).mpr keeps
  have five := documented.singleProxy_url u
  rcases Option.isSome_iff_exists.mp accepted with ⟨bare, found⟩
  rw [found] at read five
  have scheme : bare.scheme = .socks5 := by
    rcases Option.map_eq_some_iff.mp five.symm with ⟨_, _, rfl⟩
    rfl
  refine ⟨_, bare.withCredentials username password, withProxyCredentials_text lower readable ported given password, read, scheme, ?_⟩
  intro cfg host labels d ran
  have passed : through (bare.withCredentials username password) host = initial host (utf8 username) (utf8 password) := by
    simp only [through, socksCredentials, ProxyServer.withCredentials, scheme, if_true]
  rw [passed] at ran
  rcases run_talks alike ran with ⟨taken, heard, n, talks, bound⟩
  have sound : Sound upstream cfg (Connection.initial host (utf8 username) (utf8 password)).socket d := Talks.sound talks
  exact ⟨by omega, sound.proceeds, sound.arrives given⟩

section

attribute [local instance] Url.asciiPython

theorem credentials_arrive_named :
    CredentialsArrive singleParser .sibling "socks5://proxy.test:1080".toList "a@b".toList "c:d%".toList :=
  credentials_arrive singleParser_documented Upstream.sibling_alike namedProxy_foldable (by decide) _

end

end Dialogue

end Cronet.Socks.Tcp
