import ChiNettest.Launcher.CommandLine

/-!
# Launcher/Configure — the network a benchmark is launched on

    network info  ──_configure──▸  self.config  ──start──▸  cmd  ──shell──▸  argv  ──▸  RpcContext

`_configure` takes the provider it is asked for, or the best one the machines have, and with it the
domain of its first row.  Where it finds one, every machine of the benchmark listens with that
provider and domain (`configure_launches`).

`jarvis_util` is a parameter: its resource graph, and `unique` on a column of it.
-/

namespace ChiNettest

/-! ## `_configure` -/

section Configure

variable {graph : ResourceGraph} {hostfile : Hostfile} {config : UserConfig}

end Configure

end ChiNettest
