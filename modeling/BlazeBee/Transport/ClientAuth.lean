import BlazeBee.Lib.Checks
import BlazeBee.Transport.Connection

/-!
The client certificate of a TLS connection.

`TlsConfig.validate` wants a client certificate and its key together, whenever TLS is in
use. `build_transport` looks at them only behind a CA path: without one it takes the
default TLS configuration, which presents no certificate (`buildTransport_default`).
`client_auth_iff` says when the certificate that was configured is the one presented.
-/

namespace BlazeBee.Transport

open BlazeBee.Lib BlazeBee.Rumqttc

variable {readFile : String → Except IoError (List UInt8)} {config : Config} {kind : TransportKind}

/-- The certificate and the key that a transport presents to the broker. -/
def TransportKind.clientAuth : TransportKind → Option (List UInt8 × List UInt8)
  | .tcp | .tlsDefault => none
  | .tls _ clientAuth => clientAuth

/-- A file that was read has that content; the path only shows in the error. -/
theorem readPath_eq_ok_iff {path : String} {bytes : List UInt8} :
    readPath readFile path = .ok bytes ↔ readFile path = .ok bytes := mapError_eq_ok_iff

/-- TLS without a CA path: no file is read, and no certificate is presented. -/
theorem buildTransport_default (readFile : String → Except IoError (List UInt8))
    (inUse : config.tls.isEnabled = true) (no_ca : config.tls.caCertPath = none) :
    buildTransport readFile config = .ok .tlsDefault := by
  simp [buildTransport, inUse, no_ca]

/-- TLS with a CA path: the certificate and the key are read and presented. -/
theorem clientAuth_of_ca {ca cert key : String} (set_ca : config.tls.caCertPath = some ca)
    (set_cert : config.tls.clientCertPath = some cert)
    (set_key : config.tls.clientKeyPath = some key)
    (built : buildTransport readFile config = .ok kind) :
    ∃ certBytes keyBytes, readFile cert = .ok certBytes ∧ readFile key = .ok keyBytes ∧
      kind.clientAuth = some (certBytes, keyBytes) := by
  have inUse : config.tls.isEnabled = true := by simp [TlsConfig.isEnabled, set_ca]
  simp only [buildTransport, inUse, Bool.not_true, Bool.false_eq_true, if_false, set_ca, set_cert,
    set_key, bind_eq_ok_iff, pure, Except.pure, Except.ok.injEq] at built
  obtain ⟨caBytes, -, certBytes, readCert, keyBytes, readKey, auth, rfl, rfl⟩ := built
  exact ⟨certBytes, keyBytes, readPath_eq_ok_iff.mp readCert, readPath_eq_ok_iff.mp readKey, rfl⟩

/-- With a client certificate and key configured and TLS in use, every transport that is
built presents exactly these, if and only if a CA path is set as well. Validation does not
ask for one. -/
theorem client_auth_iff (readFile : String → Except IoError (List UInt8)) (config : Config)
    {cert key : String} (set_cert : config.tls.clientCertPath = some cert)
    (set_key : config.tls.clientKeyPath = some key) (inUse : config.tls.isEnabled = true) :
    (∀ kind, buildTransport readFile config = .ok kind →
      ∃ certBytes keyBytes, readFile cert = .ok certBytes ∧ readFile key = .ok keyBytes ∧
        kind.clientAuth = some (certBytes, keyBytes)) ↔
      config.tls.caCertPath.isSome = true := by
  constructor
  · intro presented
    by_contra unset
    have no_ca : config.tls.caCertPath = none := Option.not_isSome_iff_eq_none.mp unset
    obtain ⟨_, _, -, -, auth⟩ := presented _ (buildTransport_default readFile inUse no_ca)
    cases auth
  · intro set_ca kind built
    obtain ⟨ca, set_ca⟩ := Option.isSome_iff_exists.mp set_ca
    exact clientAuth_of_ca set_ca set_cert set_key built

/-- Mutual TLS, with the CA of the broker given by `ca`. -/
def mutualTls (ca : Option String) : Config :=
  { clientId := "agent"
    tls := {
      enabled := true
      caCertPath := ca
      clientCertPath := some "client.crt"
      clientKeyPath := some "client.key" } }

/-- A host on which every file holds its own name. -/
def namedFiles (path : String) : Except IoError (List UInt8) := .ok (bytesOf path)

/-- A private CA: the certificate is presented. -/
theorem client_auth_private_ca :
    Config.validate (fun _ => true) (mutualTls (some "ca.crt")) = .ok () ∧
      ∀ kind, buildTransport namedFiles (mutualTls (some "ca.crt")) = .ok kind →
        ∃ certBytes keyBytes, namedFiles "client.crt" = .ok certBytes ∧
          namedFiles "client.key" = .ok keyBytes ∧ kind.clientAuth = some (certBytes, keyBytes) :=
  ⟨rfl, (client_auth_iff namedFiles (mutualTls (some "ca.crt")) rfl rfl rfl).mpr rfl⟩

/-- The system trust store: an accepted configuration of mutual TLS connects without a
client certificate. -/
theorem client_auth_dropped :
    Config.validate (fun _ => true) (mutualTls none) = .ok () ∧
      (mutualTls none).tls.isEnabled = true ∧ (mutualTls none).tls.hasClientAuth = true ∧
      ∃ options driver, Driver.connect (fun _ => true) namedFiles 1 (mutualTls none) =
          .ok (options, driver) ∧
        options.transport = .tlsDefault ∧ options.transport.clientAuth = none :=
  ⟨rfl, rfl, rfl, _, _, rfl, rfl, rfl⟩

end BlazeBee.Transport
