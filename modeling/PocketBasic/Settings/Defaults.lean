import PocketBasic.Settings.Basic

/-!
# The settings of a new installation
-/

namespace PocketBasic.Settings

def defaults : Settings :=
  ⟨[("Server", [("port", "8080"), ("tick_interval", "50ms"), ("steps_per_tick", "1")]),
    ("Calculator", [("keymap_file", ""), ("default_program", "KEYDEMO")]),
    ("Database", [("path", "programs.db"), ("catalog_file", "")]),
    ("JWT", [("secret_key", ""), ("token_expiration_hours", "24")]),
    ("Admin", [("password_hash", "")]),
    ("Session", [("max_sessions", "100"), ("max_inactive_time", "30m"),
      ("cleanup_interval", "5m")]),
    ("Network", [("write_wait_timeout", "10s"), ("pong_timeout", "90s"),
      ("max_message_size_kb", "64"), ("send_buffer", "64"), ("allowed_origins", ""),
      ("max_session_requests_per_minute", "10"), ("max_loads_per_minute", "30")]),
    ("TLS", [("enable_tls", "false"), ("enable_letsencrypt", "false"), ("domain", ""),
      ("letsencrypt_email", ""), ("cert_cache_dir", "certs"), ("cert_file", "certs/server.crt"),
      ("key_file", "certs/server.key"), ("https_port", "8443"),
      ("force_https_redirect", "false")]),
    ("Debug", [("enable_debug_logging", "true"), ("log_level", "INFO"),
      ("log_file", "logs/retrocalc.log"), ("max_log_size_mb", "10"), ("log_rotation_count", "3"),
      ("log_interpreter", "false"), ("log_calculator", "false"), ("log_websocket", "true"),
      ("log_session", "true"), ("log_auth", "true"), ("log_database", "true"),
      ("log_programs", "true"), ("log_config", "true"), ("log_tui", "false"),
      ("log_general", "true")])]⟩

end PocketBasic.Settings
