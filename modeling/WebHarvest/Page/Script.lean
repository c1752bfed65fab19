/-!
# The program that a page runs

Compiled schemas are run inside a page by one fixed program, which gets the matched elements and a
payload. `WebHarvest.Page.Interpret` says what it computes.
-/

set_option autoImplicit false

namespace WebHarvest.Page

def scriptLines : List String :=
  ["",
    "(elements, payload) => \x7b",
    "  const procedures = \x7b\x7d;",
    "  for (const [ref, source] of Object.entries(payload.callbacks)) \x7b",
    "    procedures[ref] = new Function(`return (\\n$\x7bsource\x7d\\n);`)();",
    "  \x7d",
    "",
    "  const resolve = (element, selector) =>",
    "    selector ? element.querySelector(selector) : element;",
    "",
    "  const run = (element, node) => \x7b",
    "    switch (node.kind) \x7b",
    "      case 'text': \x7b",
    "        const target = resolve(element, node.selector);",
    "        const value = target ? target.textContent : null;",
    "        if (value === null || value === undefined) \x7b",
    "          return node.default;",
    "        \x7d",
    "        return node.trim ? value.trim() : value;",
    "      \x7d",
    "      case 'attr': \x7b",
    "        const target = resolve(element, node.selector);",
    "        const value = target ? target.getAttribute(node.attribute) : null;",
    "        return value === null ? node.default : value;",
    "      \x7d",
    "      case 'html': \x7b",
    "        const target = resolve(element, node.selector);",
    "        const value = target ? target.innerHTML : null;",
    "        return value === null || value === undefined ? node.default : value;",
    "      \x7d",
    "      case 'exists':",
    "        return resolve(element, node.selector) !== null;",
    "      case 'count':",
    "        return element.querySelectorAll(node.selector).length;",
    "      case 'array':",
    "        return Array.from(element.querySelectorAll(node.selector), (match) => run(match, node.item));",
    "      case 'object': \x7b",
    "        const record = \x7b\x7d;",
    "        for (const [key, child] of node.fields) \x7b",
    "          Object.defineProperty(record, key, \x7b",
    "            value: run(element, child),",
    "            enumerable: true,",
    "            writable: true,",
    "            configurable: true,",
    "          \x7d);",
    "        \x7d",
    "        return record;",
    "      \x7d",
    "      case 'callback':",
    "        return procedures[node.ref](element);",
    "      case 'value':",
    "        return node.value;",
    "      default:",
    "        throw new Error(`Unknown node kind: $\x7bnode.kind\x7d`);",
    "    \x7d",
    "  \x7d;",
    "",
    "  return elements.map((element) => run(element, payload.root));",
    "\x7d",
    ""]

def script : String := "\n".intercalate scriptLines

end WebHarvest.Page
